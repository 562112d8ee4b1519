import Mathlib.Logic.Relation
import TestSelection.Module.Traversal
import TestSelection.Proofs.ModuleOwnership
import TestSelection.Proofs.Reachability

/-!
Traversals end, and ask each module once. A module is asked when it is visited and is never visited
again, however often it waits in the queue. Every step visits a module or shortens the queue, so a
traversal comes to an end, and there it has visited and asked the module that it began with and all
that this one is connected to by the declared dependencies.
-/

namespace TestSelection.ModuleGraph

variable {graph : ModuleGraph} {specs : List ModuleSpec} {name next target start : String}

/-- The module `name` is declared to depend on `next`. -/
def DependsOn (specs : List ModuleSpec) (name next : String) : Prop :=
  ∃ spec ∈ specs, spec.name = name ∧ next ∈ spec.dependencies

/-- What a module of an accepted graph reaches is what declared dependencies connect it to. -/
theorem reaches_iff_connected (h : ofSpecs specs = .ok graph) :
    Reaches graph name target ↔ Relation.ReflTransGen (DependsOn specs) name target := by
  constructor
  · intro hreaches
    induction hreaches with
    | refl _ => exact Relation.ReflTransGen.refl
    | step hnext _ ih =>
      exact Relation.ReflTransGen.head ((mem_dependencies_iff_declared h).mp hnext) ih
  · intro hconnected
    induction hconnected using Relation.ReflTransGen.head_induction_on with
    | refl => exact Reaches.refl _
    | head hnext _ ih => exact Reaches.step ((mem_dependencies_iff_declared h).mpr hnext) ih

namespace Traversal

variable {traversal earlier later last : Traversal}

/-- The steps of a traversal lead from one state to another. -/
def Leads (graph : ModuleGraph) : Traversal → Traversal → Prop :=
  Relation.ReflTransGen fun earlier later => earlier.step graph = some later

theorem step_eq_none_iff : traversal.step graph = none ↔ traversal.queue = [] := by
  obtain ⟨visited, queue, asked⟩ := traversal
  cases queue with
  | nil => simp [step]
  | cons name queue =>
    simp only [step]
    split <;> simp

/-- A step passes over the first module of the queue or reads its dependencies. -/
theorem step_cases (h : earlier.step graph = some later) :
    ∃ name queue, earlier.queue = name :: queue ∧
      (name ∈ earlier.visited ∧ later = earlier.passOver queue ∨
        name ∉ earlier.visited ∧ later = earlier.read graph name queue) := by
  obtain ⟨visited, waiting, asked⟩ := earlier
  cases waiting with
  | nil => cases h
  | cons name queue =>
    refine ⟨name, queue, rfl, ?_⟩
    by_cases hname : name ∈ visited
    · have hseen : visited.contains name = true := List.contains_iff_mem.mpr hname
      simp only [step, hseen, if_true] at h
      exact Or.inl ⟨hname, (Option.some.inj h).symm⟩
    · have hnew : ¬ visited.contains name = true := fun h => hname (List.contains_iff_mem.mp h)
      simp only [step, if_neg hnew] at h
      exact Or.inr ⟨hname, (Option.some.inj h).symm⟩

/-- A step does not change what the traversal comes to visit. -/
theorem visit_eq_of_step (h : earlier.step graph = some later) :
    graph.visit earlier.visited earlier.queue = graph.visit later.visited later.queue := by
  obtain ⟨name, queue, hqueue, ⟨hname, rfl⟩ | ⟨hname, rfl⟩⟩ := step_cases h
  · rw [hqueue, visit, if_pos (List.contains_iff_mem.mpr hname)]
    rfl
  · have hnew : ¬ earlier.visited.contains name = true :=
      fun h => hname (List.contains_iff_mem.mp h)
    rw [hqueue, visit, if_neg hnew]
    rfl

theorem visit_eq_of_leads (h : Leads graph earlier later) :
    graph.visit earlier.visited earlier.queue = graph.visit later.visited later.queue := by
  induction h with
  | refl => rfl
  | tail _ hstep ih => exact ih.trans (visit_eq_of_step hstep)

/-- The modules visited have been asked, each of them once and in the same order. -/
structure AskedOnce (traversal : Traversal) : Prop where
  asked_eq : traversal.asked = traversal.visited
  nodup : traversal.visited.Nodup

theorem askedOnce_begin (start : String) : (begin start).AskedOnce := ⟨rfl, List.nodup_nil⟩

theorem AskedOnce.step (h : earlier.AskedOnce) (hstep : earlier.step graph = some later) :
    later.AskedOnce := by
  obtain ⟨name, queue, _, ⟨_, rfl⟩ | ⟨hnew, rfl⟩⟩ := step_cases hstep
  · exact ⟨h.asked_eq, h.nodup⟩
  · constructor
    · show earlier.asked ++ [name] = earlier.visited ++ [name]
      rw [h.asked_eq]
    · show (earlier.visited ++ [name]).Nodup
      rw [← List.concat_eq_append]
      exact h.nodup.concat hnew

theorem AskedOnce.leads (h : earlier.AskedOnce) (hleads : Leads graph earlier later) :
    later.AskedOnce := by
  induction hleads with
  | refl => exact h
  | tail _ hstep ih => exact ih.step hstep

/-- No traversal goes on for ever, however it has been begun. -/
theorem wellFounded_step (graph : ModuleGraph) :
    WellFounded fun later earlier : Traversal => earlier.step graph = some later := by
  have hends (visited queue : List String) : ∀ asked,
      Acc (fun later earlier : Traversal => earlier.step graph = some later)
        ⟨visited, queue, asked⟩ := by
    -- The traversal takes its steps where the visit goes on.
    induction visited, queue using visit.induct graph with
    | case1 visited =>
      intro asked
      apply Acc.intro
      intro later hstep
      cases hstep
    | case2 visited name queue hseen ih =>
      intro asked
      apply Acc.intro
      intro later hstep
      simp only [step, hseen, if_true] at hstep
      obtain rfl := Option.some.inj hstep
      exact ih asked
    | case3 visited name queue hnew ih =>
      intro asked
      apply Acc.intro
      intro later hstep
      simp only [step, if_neg hnew] at hstep
      obtain rfl := Option.some.inj hstep
      exact ih (asked ++ [name])
  exact ⟨fun traversal => hends traversal.visited traversal.queue traversal.asked⟩

theorem exists_end (graph : ModuleGraph) (traversal : Traversal) :
    ∃ last, Leads graph traversal last ∧ last.queue = [] := by
  induction traversal using (wellFounded_step graph).induction with
  | _ traversal ih =>
    cases hstep : traversal.step graph with
    | none => exact ⟨traversal, Relation.ReflTransGen.refl, step_eq_none_iff.mp hstep⟩
    | some later =>
      obtain ⟨last, hleads, hempty⟩ := ih later hstep
      exact ⟨last, Relation.ReflTransGen.head hstep hleads, hempty⟩

/-- There is one way for a traversal to go on, so it comes to the same end from everywhere on it. -/
theorem leads_to_end (hlast : Leads graph traversal last) (hempty : last.queue = [])
    (h : Leads graph traversal later) : Leads graph later last := by
  have hunique : Relator.RightUnique fun earlier later : Traversal =>
      earlier.step graph = some later := by
    intro earlier first second hfirst hsecond
    exact Option.some.inj (hfirst.symm.trans hsecond)
  rcases Relation.ReflTransGen.total_of_right_unique hunique hlast h with hback | hforth
  · rcases Relation.ReflTransGen.cases_head hback with heq | ⟨next, hstep, _⟩
    · rw [heq]
      exact Relation.ReflTransGen.refl
    · rw [step_eq_none_iff.mpr hempty] at hstep
      cases hstep
  · exact hforth

end Traversal

/-- A traversal of an accepted graph ends wherever it begins, with the module that it began with and
all that this one is connected to. It has asked each of them for its dependencies exactly once, and
no other module at all. -/
theorem asks_each_once (hgraph : ofSpecs specs = .ok graph) (start : String) :
    (WellFounded fun later earlier : Traversal => earlier.step graph = some later) ∧
    ∃ last : Traversal, last.step graph = none ∧
      (∀ later, Traversal.Leads graph (Traversal.begin start) later →
        Traversal.Leads graph later last) ∧
      graph.reachable start = Ascending.ofList last.visited ∧
      (∀ target, target ∈ graph.reachable start ↔
        target = start ∨ Relation.TransGen (DependsOn specs) start target) ∧
      ∀ target, last.asked.count target = if target ∈ graph.reachable start then 1 else 0 := by
  refine ⟨Traversal.wellFounded_step graph, ?_⟩
  obtain ⟨last, hleads, hempty⟩ := Traversal.exists_end graph (Traversal.begin start)
  have hvisited : graph.visitOrder start = last.visited := by
    have hsame := Traversal.visit_eq_of_leads hleads
    rw [hempty, visit] at hsame
    exact hsame
  have hmem (target : String) : target ∈ graph.reachable start ↔ target ∈ last.visited := by
    rw [reachable, hvisited, Ascending.mem_ofList]
  have hasked : last.AskedOnce := (Traversal.askedOnce_begin start).leads hleads
  refine ⟨last, Traversal.step_eq_none_iff.mpr hempty, ?_, ?_, ?_, ?_⟩
  · intro later hlater
    exact Traversal.leads_to_end hleads hempty hlater
  · rw [reachable, hvisited]
  · intro target
    rw [mem_reachable_iff, reaches_iff_connected hgraph, Relation.reflTransGen_iff_eq_or_transGen]
  · intro target
    rw [hasked.asked_eq, hasked.nodup.count]
    simp only [hmem]

/-- A shop in which orders depend on themselves, and on stock in two ways, and stock depends on
orders. -/
def circleSpecs : List ModuleSpec :=
  [⟨"billing", [], [], ["stock"]⟩, ⟨"orders", [], [], ["billing", "orders", "shipping"]⟩,
    ⟨"shipping", [], [], ["stock"]⟩, ⟨"stock", [], [], ["orders"]⟩]

/-- Stock waits twice and is asked once. -/
theorem asks_each_once_in_circle :
    let circle : ModuleGraph := ⟨circleSpecs⟩
    ofSpecs circleSpecs = .ok circle ∧
      ∃ last : Traversal, last.step circle = none ∧
        Traversal.Leads circle (Traversal.begin "orders") last ∧ last.asked.count "stock" = 1 := by
  intro circle
  have hcircle : ofSpecs circleSpecs = .ok circle :=
    ofSpecs_of_sorted (by decide) (by decide) (by decide) (by decide)
  obtain ⟨_, last, hend, hleads, _, hmem, hcount⟩ := asks_each_once hcircle "orders"
  have hfirst : DependsOn circleSpecs "orders" "billing" :=
    ⟨⟨"orders", [], [], ["billing", "orders", "shipping"]⟩, by decide, rfl, by decide⟩
  have hsecond : DependsOn circleSpecs "billing" "stock" :=
    ⟨⟨"billing", [], [], ["stock"]⟩, by decide, rfl, by decide⟩
  have hstock : "stock" ∈ circle.reachable "orders" :=
    (hmem "stock").mpr (Or.inr (Relation.TransGen.head hfirst (Relation.TransGen.single hsecond)))
  refine ⟨hcircle, last, hend, hleads _ Relation.ReflTransGen.refl, ?_⟩
  rw [hcount, if_pos hstock]

end TestSelection.ModuleGraph
