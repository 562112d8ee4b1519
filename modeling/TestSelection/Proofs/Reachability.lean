import TestSelection.Module.Reachable

/-!
The traversal of a module graph finds exactly what the graph connects. Nothing visited or queued
is lost. At every moment each dependency of a visited module has been visited or waits in the
queue, so when the queue is empty the visited modules are closed under dependencies. Nothing is
found that no queued module reaches. No property of the graph is assumed: cycles, dependencies of
a module on itself and dependencies that nobody declared are all covered.
-/

namespace TestSelection.ModuleGraph

/-- A set that holds the dependencies of its members holds whatever they reach. -/
theorem Reaches.mem_of_closed {graph : ModuleGraph} {set : List String}
    (hclosed : ∀ name ∈ set, ∀ next ∈ graph.dependencies name, next ∈ set)
    {name target : String} (h : Reaches graph name target) (hname : name ∈ set) :
    target ∈ set := by
  induction h with
  | refl _ => exact hname
  | step hnext _ ih => exact ih (hclosed _ hname _ hnext)

theorem Reaches.trans {graph : ModuleGraph} {name next target : String}
    (h : Reaches graph name next) (hnext : Reaches graph next target) :
    Reaches graph name target := by
  induction h with
  | refl _ => exact hnext
  | step hdepends _ ih => exact Reaches.step hdepends (ih hnext)

theorem Reaches.mono {graph larger : ModuleGraph}
    (hmore : ∀ name next, next ∈ graph.dependencies name → next ∈ larger.dependencies name)
    {name target : String} (h : Reaches graph name target) : Reaches larger name target := by
  induction h with
  | refl _ => exact Reaches.refl _
  | step hdepends _ ih => exact Reaches.step (hmore _ _ hdepends) ih

/-- Each dependency of a visited module has been visited or waits in the queue. -/
def Expanded (graph : ModuleGraph) (visited queue : List String) : Prop :=
  ∀ name ∈ visited, ∀ next ∈ graph.dependencies name, next ∈ visited ∨ next ∈ queue

theorem expanded_start (graph : ModuleGraph) (start : String) : graph.Expanded [] [start] := by
  intro name hname
  exact absurd hname List.not_mem_nil

theorem Expanded.passOver {graph : ModuleGraph} {visited queue : List String} {name : String}
    (h : graph.Expanded visited (name :: queue)) (hname : name ∈ visited) :
    graph.Expanded visited queue := by
  intro other hother next hnext
  rcases h other hother next hnext with hvisited | hqueued
  · exact Or.inl hvisited
  · rcases List.mem_cons.mp hqueued with rfl | hqueued
    · exact Or.inl hname
    · exact Or.inr hqueued

theorem Expanded.read {graph : ModuleGraph} {visited queue : List String} {name : String}
    (h : graph.Expanded visited (name :: queue)) :
    graph.Expanded (visited ++ [name])
      (queue ++ (graph.dependencies name).filter
        fun next => !(visited ++ [name]).contains next) := by
  intro other hother next hnext
  by_cases hknown : next ∈ visited ++ [name]
  · exact Or.inl hknown
  right
  rcases List.mem_append.mp hother with hother | hother
  · rcases h other hother next hnext with hvisited | hqueued
    · exact absurd (List.mem_append_left _ hvisited) hknown
    · rcases List.mem_cons.mp hqueued with rfl | hqueued
      · simp at hknown
      · exact List.mem_append_left _ hqueued
  · have hname : other = name := List.mem_singleton.mp hother
    subst hname
    refine List.mem_append_right _ (List.mem_filter.mpr ⟨hnext, ?_⟩)
    simpa using hknown

theorem mem_visit_of_mem (graph : ModuleGraph) (visited queue : List String) {name : String}
    (h : name ∈ visited ∨ name ∈ queue) : name ∈ graph.visit visited queue := by
  fun_induction visit graph visited queue with
  | case1 visited => simpa using h
  | case2 visited head queue hseen ih =>
    apply ih
    rcases h with h | h
    · exact Or.inl h
    · rcases List.mem_cons.mp h with rfl | h
      · exact Or.inl (by simpa using hseen)
      · exact Or.inr h
  | case3 visited head queue hseen ih =>
    apply ih
    rcases h with h | h
    · exact Or.inl (List.mem_append_left _ h)
    · rcases List.mem_cons.mp h with rfl | h
      · exact Or.inl (by simp)
      · exact Or.inr (List.mem_append_left _ h)

theorem visit_closed (graph : ModuleGraph) (visited queue : List String)
    (h : graph.Expanded visited queue) {name next : String}
    (hname : name ∈ graph.visit visited queue) (hnext : next ∈ graph.dependencies name) :
    next ∈ graph.visit visited queue := by
  fun_induction visit graph visited queue with
  | case1 visited =>
    rcases h name hname next hnext with hvisited | hqueued
    · exact hvisited
    · exact absurd hqueued List.not_mem_nil
  | case2 visited head queue hseen ih => exact ih (h.passOver (by simpa using hseen)) hname
  | case3 visited head queue hseen ih => exact ih h.read hname

theorem reaches_of_mem_visit (graph : ModuleGraph) (visited queue : List String) {target : String}
    (h : target ∈ graph.visit visited queue) :
    target ∈ visited ∨ ∃ name ∈ queue, Reaches graph name target := by
  fun_induction visit graph visited queue with
  | case1 visited => exact Or.inl h
  | case2 visited head queue hseen ih =>
    rcases ih h with hvisited | ⟨name, hname, hreaches⟩
    · exact Or.inl hvisited
    · exact Or.inr ⟨name, List.mem_cons_of_mem _ hname, hreaches⟩
  | case3 visited head queue hseen ih =>
    rcases ih h with hvisited | ⟨name, hname, hreaches⟩
    · rcases List.mem_append.mp hvisited with hvisited | hhead
      · exact Or.inl hvisited
      · have heq : target = head := List.mem_singleton.mp hhead
        subst heq
        exact Or.inr ⟨target, List.mem_cons_self, Reaches.refl target⟩
    · rcases List.mem_append.mp hname with hqueued | hdependency
      · exact Or.inr ⟨name, List.mem_cons_of_mem _ hqueued, hreaches⟩
      · have hstep : name ∈ graph.dependencies head := (List.mem_filter.mp hdependency).1
        exact Or.inr ⟨head, List.mem_cons_self, Reaches.step hstep hreaches⟩

theorem mem_visitOrder_iff (graph : ModuleGraph) (start target : String) :
    target ∈ graph.visitOrder start ↔ Reaches graph start target := by
  constructor
  · intro h
    rcases reaches_of_mem_visit graph [] [start] h with hnone | ⟨name, hname, hreaches⟩
    · exact absurd hnone List.not_mem_nil
    · rwa [List.mem_singleton.mp hname] at hreaches
  · intro h
    refine h.mem_of_closed ?_ (mem_visit_of_mem graph [] [start] (Or.inr List.mem_cons_self))
    intro name hname next hnext
    exact visit_closed graph [] [start] (expanded_start graph start) hname hnext

theorem mem_reachable_iff (graph : ModuleGraph) (start target : String) :
    target ∈ graph.reachable start ↔ Reaches graph start target :=
  Ascending.mem_ofList.trans (mem_visitOrder_iff graph start target)

end TestSelection.ModuleGraph
