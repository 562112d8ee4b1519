import Mathlib.Data.List.Nodup
import TestSelection.Proofs.LongestBase
import TestSelection.Proofs.SharedReach
import TestSelection.Proofs.Traversals

/-!
Which declarations are refused, and for what. A name that has been declared before is told first,
for the earliest declaration that takes one up again. Otherwise it is a dependency that nobody
declares: the least one of the module that comes first by name among those that have one. All other
declarations are accepted, and no path along their dependencies leaves the declared modules.
-/

namespace TestSelection.ModuleGraph

variable {graph : ModuleGraph} {specs : List ModuleSpec} {seen names : List String}
  {name dependency : String} {fault other : GraphFault}

/-- The module `name` is declared to depend on something that is not declared. -/
structure Lacks (specs : List ModuleSpec) (name dependency : String) : Prop where
  depends : DependsOn specs name dependency
  undeclared : dependency ∉ specs.map (·.name)

/-- What declarations are refused for. -/
inductive RefusedFor (specs : List ModuleSpec) : GraphFault → Prop
  | repeated {before after : List ModuleSpec} {spec : ModuleSpec}
      (hspecs : specs = before ++ spec :: after) (hbefore : (before.map (·.name)).Nodup)
      (hagain : spec.name ∈ before.map (·.name)) : RefusedFor specs (.repeated spec.name)
  | undeclared {name dependency : String} (hdistinct : (specs.map (·.name)).Nodup)
      (hlacks : Lacks specs name dependency)
      (hname : ∀ other next, Lacks specs other next → name ≤ other)
      (hleast : ∀ next, Lacks specs name next → dependency ≤ next) :
      RefusedFor specs (.undeclared name dependency)

/-- Distinct new names in front are passed over and count as seen. -/
theorem firstRepeated_append_of_fresh {before : List String} (hnodup : before.Nodup)
    (hfresh : ∀ earlier ∈ before, earlier ∉ seen) :
    firstRepeated seen (before ++ names) = firstRepeated (seen ++ before) names := by
  induction before generalizing seen with
  | nil => rw [List.nil_append, List.append_nil]
  | cons head before ih =>
    obtain ⟨hhead, hnodup⟩ := List.nodup_cons.mp hnodup
    have hnew : head ∉ seen := hfresh head List.mem_cons_self
    have hlater : ∀ earlier ∈ before, earlier ∉ seen ++ [head] := by
      intro earlier hearlier h
      rcases List.mem_append.mp h with h | h
      · exact hfresh earlier (List.mem_cons_of_mem _ hearlier) h
      · exact hhead (List.mem_singleton.mp h ▸ hearlier)
    rw [List.cons_append, firstRepeated, if_neg hnew, ih hnodup hlater, List.append_assoc,
      List.singleton_append]

theorem exists_split_of_firstRepeated (h : firstRepeated seen names = some name) :
    ∃ before after, names = before ++ name :: after ∧ before.Nodup ∧
      (∀ earlier ∈ before, earlier ∉ seen) ∧ (name ∈ seen ∨ name ∈ before) := by
  induction names generalizing seen with
  | nil => cases h
  | cons head rest ih =>
    unfold firstRepeated at h
    by_cases hseen : head ∈ seen
    · rw [if_pos hseen] at h
      obtain rfl := Option.some.inj h
      exact ⟨[], rest, rfl, List.nodup_nil, by simp, Or.inl hseen⟩
    · rw [if_neg hseen] at h
      obtain ⟨before, after, hrest, hnodup, hfresh, hagain⟩ := ih h
      have hhead : head ∉ before := fun hmem => hfresh head hmem (by simp)
      refine ⟨head :: before, after, by rw [hrest, List.cons_append],
        List.nodup_cons.mpr ⟨hhead, hnodup⟩, ?_, ?_⟩
      · intro earlier hearlier
        rcases List.mem_cons.mp hearlier with rfl | hearlier
        · exact hseen
        · exact fun h => hfresh earlier hearlier (List.mem_append_left _ h)
      · rcases hagain with hagain | hagain
        · rcases List.mem_append.mp hagain with hagain | hagain
          · exact Or.inl hagain
          · exact Or.inr (by simp [List.mem_singleton.mp hagain])
        · exact Or.inr (List.mem_cons_of_mem _ hagain)

/-- The name found has occurred before, and the names in front of it are distinct and new. -/
theorem firstRepeated_eq_some_iff : firstRepeated seen names = some name ↔
    ∃ before after, names = before ++ name :: after ∧ before.Nodup ∧
      (∀ earlier ∈ before, earlier ∉ seen) ∧ (name ∈ seen ∨ name ∈ before) := by
  constructor
  · exact exists_split_of_firstRepeated
  · intro h
    obtain ⟨before, after, rfl, hnodup, hfresh, hagain⟩ := h
    rw [firstRepeated_append_of_fresh hnodup hfresh, firstRepeated,
      if_pos (List.mem_append.mpr hagain)]

theorem firstRepeated_nil_eq_some_iff : firstRepeated [] (specs.map (·.name)) = some name ↔
    ∃ before spec after, specs = before ++ spec :: after ∧ spec.name = name ∧
      (before.map (·.name)).Nodup ∧ name ∈ before.map (·.name) := by
  rw [firstRepeated_eq_some_iff]
  constructor
  · intro ⟨before, after, hnames, hnodup, _, hagain⟩
    obtain ⟨front, back, rfl, rfl, hback⟩ := List.map_eq_append_iff.mp hnames
    obtain ⟨spec, rest, rfl, hname, _⟩ := List.map_eq_cons_iff.mp hback
    exact ⟨front, spec, rest, rfl, hname, hnodup, hagain.resolve_left List.not_mem_nil⟩
  · intro ⟨before, spec, after, hspecs, hname, hnodup, hagain⟩
    refine ⟨before.map (·.name), after.map (·.name), ?_, hnodup, by simp, Or.inr hagain⟩
    rw [hspecs, List.map_append, List.map_cons, hname]

/-- No declaration has the name `next`, as the search asks the modules in their order. -/
theorem undeclared_iff {next : String} :
    ((ordered specs).all fun other => other.name ≠ next) = true ↔ next ∉ specs.map (·.name) := by
  rw [List.all_eq_true, List.mem_map, not_exists]
  constructor
  · intro h spec ⟨hspec, hname⟩
    have hother := h _ (mem_ordered_iff.mpr ⟨spec, hspec, rfl⟩)
    exact of_decide_eq_true hother hname
  · intro h other hother
    obtain ⟨spec, hspec, rfl⟩ := mem_ordered_iff.mp hother
    exact decide_eq_true fun hname => h spec ⟨hspec, hname⟩

/-- Where the modules in front of a module lack nothing, every module that lacks something has a
name that is not smaller. -/
theorem name_le_of_lacks {before after : List ModuleSpec} {spec : ModuleSpec} {next : String}
    (hmodules : ordered specs = before ++ spec :: after)
    (hbefore : ∀ earlier ∈ before, ∀ next ∈ earlier.dependencies, next ∈ specs.map (·.name))
    (h : Lacks specs name next) : spec.name ≤ name := by
  obtain ⟨⟨given, hgiven, rfl, hnext⟩, hundeclared⟩ := h
  have hsorted : (ordered specs).Pairwise fun first second => first.name ≤ second.name :=
    pairwise_names_ordered
  have hplace := mem_ordered_iff.mpr ⟨given, hgiven, rfl⟩
  rw [hmodules] at hsorted hplace
  rcases List.mem_append.mp hplace with hplace | hplace
  · exact absurd (hbefore _ hplace next (Ascending.mem_ofList.mpr hnext)) hundeclared
  · rcases List.mem_cons.mp hplace with hsame | hplace
    · have heq : given.name = spec.name := by rw [← hsame]
      exact heq ▸ String.le_refl _
    · have hle := (List.pairwise_cons.mp (List.pairwise_append.mp hsorted).2.1).1 _ hplace
      exact hle

/-- A dependency that the search finds is the least one of its module that is not declared, and no
module before it has one. -/
theorem refusedFor_of_firstUndeclared (hdistinct : (specs.map (·.name)).Nodup)
    (h : firstUndeclared (ordered specs) = some fault) : RefusedFor specs fault := by
  obtain ⟨before, spec, after, hmodules, hfault, hpassed⟩ := List.findSome?_eq_some_iff.mp h
  obtain ⟨dependency, hfound, rfl⟩ := Option.map_eq_some_iff.mp hfault
  have hspec : spec ∈ ordered specs := by simp [hmodules]
  obtain ⟨given, hgiven, rfl⟩ := mem_ordered_iff.mp hspec
  obtain ⟨hdependency, hundeclared, hfirst⟩ :=
    (Ascending.find?_eq_some_iff_of_pairwise String.lt_asymm
      (Ascending.pairwise_ofList given.dependencies)).mp hfound
  have hdepends : DependsOn specs given.name dependency :=
    ⟨given, hgiven, rfl, Ascending.mem_ofList.mp hdependency⟩
  refine RefusedFor.undeclared hdistinct ⟨hdepends, undeclared_iff.mp hundeclared⟩ ?_ ?_
  · intro other next hlacks
    refine name_le_of_lacks hmodules ?_ hlacks
    intro earlier hearlier next hnext
    have hnone := List.find?_eq_none.mp (Option.map_eq_none_iff.mp (hpassed earlier hearlier))
    by_contra hmissing
    exact hnone next hnext (undeclared_iff.mpr hmissing)
  · intro next ⟨⟨declared, hdeclared, hname, hnext⟩, hmissing⟩
    obtain rfl : declared = given :=
      List.inj_on_of_nodup_map hdistinct hdeclared hgiven hname
    rcases hfirst next (Ascending.mem_ofList.mpr hnext) (undeclared_iff.mpr hmissing) with heq | hlt
    · exact heq ▸ String.le_refl _
    · exact String.not_lt.mp (String.lt_asymm hlt)

theorem RefusedFor.of_ofSpecs (h : ofSpecs specs = .error fault) : RefusedFor specs fault := by
  unfold ofSpecs at h
  split at h
  · next name hrepeated =>
    cases h
    obtain ⟨before, spec, after, hspecs, rfl, hnodup, hagain⟩ :=
      firstRepeated_nil_eq_some_iff.mp hrepeated
    exact .repeated hspecs hnodup hagain
  · next hnone =>
    have hdistinct : (specs.map (·.name)).Nodup := (firstRepeated_eq_none_iff.mp hnone).1
    split at h
    · next found hfound =>
      cases h
      exact refusedFor_of_firstUndeclared hdistinct hfound
    · cases h

theorem not_nodup_of_repeated {before after : List ModuleSpec} {spec : ModuleSpec}
    (hspecs : specs = before ++ spec :: after) (hagain : spec.name ∈ before.map (·.name)) :
    ¬ (specs.map (·.name)).Nodup := by
  intro hdistinct
  rw [hspecs, List.map_append, List.map_cons] at hdistinct
  exact List.disjoint_of_nodup_append hdistinct hagain List.mem_cons_self

/-- Declarations are refused for one fault at most. -/
theorem RefusedFor.unique (h : RefusedFor specs fault) (hother : RefusedFor specs other) :
    fault = other := by
  cases h with
  | repeated hspecs hbefore hagain =>
    cases hother with
    | repeated hspecs' hbefore' hagain' =>
      have hfirst := firstRepeated_nil_eq_some_iff.mpr ⟨_, _, _, hspecs, rfl, hbefore, hagain⟩
      have hsecond := firstRepeated_nil_eq_some_iff.mpr ⟨_, _, _, hspecs', rfl, hbefore', hagain'⟩
      rw [Option.some.inj (hfirst.symm.trans hsecond)]
    | undeclared hdistinct => exact absurd hdistinct (not_nodup_of_repeated hspecs hagain)
  | undeclared hdistinct hlacks hname hleast =>
    cases hother with
    | repeated hspecs _ hagain => exact absurd hdistinct (not_nodup_of_repeated hspecs hagain)
    | undeclared _ hlacks' hname' hleast' =>
      obtain rfl := String.le_antisymm (hname _ _ hlacks') (hname' _ _ hlacks)
      obtain rfl := String.le_antisymm (hleast _ hlacks') (hleast' _ hlacks)
      rfl

/-- Accepted declarations have distinct names and lack nothing. -/
theorem not_refusedFor_of_ofSpecs (h : ofSpecs specs = .ok graph) : ¬ RefusedFor specs fault := by
  intro hrefused
  cases hrefused with
  | repeated hspecs _ hagain =>
    exact not_nodup_of_repeated hspecs hagain (nodup_of_ofSpecs h)
  | undeclared _ hlacks =>
    obtain ⟨hdepends, hundeclared⟩ := hlacks
    have hnext := (mem_dependencies_iff_declared h).mpr hdepends
    have hname := mem_names_of_mem_dependencies h hnext
    exact hundeclared ((names_perm_of_ofSpecs h).mem_iff.mp hname)

theorem ofSpecs_eq_error_iff : ofSpecs specs = .error fault ↔ RefusedFor specs fault := by
  constructor
  · exact RefusedFor.of_ofSpecs
  · intro h
    cases hspecs : ofSpecs specs with
    | ok graph => exact absurd h (not_refusedFor_of_ofSpecs hspecs)
    | error found => rw [(RefusedFor.of_ofSpecs hspecs).unique h]

/-- Declarations are accepted if and only if their names are distinct and every dependency in them
is declared, wherever it is. Others are refused for the first name that is taken up again, or else
for the least missing dependency of the first module by name that has one. In a graph of accepted
declarations, all that a declared module reaches is declared. -/
theorem accepted_or_refused_for_first_fault (specs : List ModuleSpec) :
    ((∃ graph, ofSpecs specs = .ok graph) ↔
      (specs.map (·.name)).Nodup ∧
        ∀ spec ∈ specs, ∀ next ∈ spec.dependencies, next ∈ specs.map (·.name)) ∧
    (∀ fault, ofSpecs specs = .error fault ↔ RefusedFor specs fault) ∧
    ∀ graph, ofSpecs specs = .ok graph →
      (∀ name, name ∈ graph.names ↔ name ∈ specs.map (·.name)) ∧
      ∀ name ∈ graph.names, ∀ target ∈ graph.reachable name, target ∈ graph.names := by
  refine ⟨⟨?_, ?_⟩, fun fault => ofSpecs_eq_error_iff, ?_⟩
  · intro ⟨graph, hgraph⟩
    refine ⟨nodup_of_ofSpecs hgraph, ?_⟩
    intro spec hspec next hnext
    have hdepends := (mem_dependencies_iff_declared hgraph).mpr ⟨spec, hspec, rfl, hnext⟩
    exact (names_perm_of_ofSpecs hgraph).mem_iff.mp (mem_names_of_mem_dependencies hgraph hdepends)
  · intro ⟨hdistinct, hdeclared⟩
    cases hspecs : ofSpecs specs with
    | ok graph => exact ⟨graph, rfl⟩
    | error fault =>
      cases RefusedFor.of_ofSpecs hspecs with
      | repeated hsplit _ hagain => exact absurd hdistinct (not_nodup_of_repeated hsplit hagain)
      | undeclared _ hlacks =>
        obtain ⟨⟨spec, hspec, _, hnext⟩, hundeclared⟩ := hlacks
        exact absurd (hdeclared spec hspec _ hnext) hundeclared
  · intro graph hgraph
    refine ⟨fun name => (names_perm_of_ofSpecs hgraph).mem_iff, ?_⟩
    intro name hname target htarget
    exact ((mem_reachable_iff _ _ _).mp htarget).mem_names hgraph hname

end TestSelection.ModuleGraph
