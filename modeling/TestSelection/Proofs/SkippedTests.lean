import TestSelection.Detection.Selector
import TestSelection.Proofs.ModuleOwnership
import TestSelection.Proofs.Reachability
import TestSelection.Proofs.SourceRoots

/-!
When a test is skipped. A module's tests are skipped exactly when some unit has changed and no
changed unit belongs to the module or to a module that it reaches. Put together with the location
of a candidate and the classification of the reported paths, this gives the exact condition under
which a candidate is skipped; everything else runs.
-/

namespace TestSelection

/-- Some of `paths` are units of the layout, and none of these units belongs to the module `name`
or to one that it reaches. -/
structure Unaffected (layout : SourceLayout) (graph : ModuleGraph) (paths : List String)
    (name : String) : Prop where
  unit : ∃ path ∈ paths, ∃ identity, layout.IsUnit path identity
  apart : ∀ path ∈ paths, ∀ identity, layout.IsUnit path identity →
    ∀ other, ModuleGraph.Reaches graph name other → graph.containsEntity other identity = false

theorem Verdict.eq_run_iff {verdict : Verdict} : verdict = .run ↔ verdict ≠ .skip := by
  cases verdict <;> simp

namespace ModuleGraph

variable {graph : ModuleGraph} {name : String} {set : ChangeSet}

theorem hasChanges_iff :
    graph.hasChanges set name = true ↔
      ∃ identity ∈ set.entities, graph.containsEntity name identity = true :=
  List.any_eq_true

theorem isEmpty_of_entities_ne_nil (h : set.entities ≠ []) : set.isEmpty = false := by
  cases hlist : set.toList with
  | nil => exact absurd (by simp [ChangeSet.entities, hlist]) h
  | cons change rest => simp [ChangeSet.isEmpty, hlist]

/-- A changed unit belongs to a module that `name` reaches. -/
def ReachesChanges (graph : ModuleGraph) (set : ChangeSet) (name : String) : Prop :=
  ∃ other, Reaches graph name other ∧ graph.hasChanges set other = true

theorem not_reachesChanges_iff :
    ¬ ReachesChanges graph set name ↔
      ∀ identity ∈ set.entities, ∀ other, Reaches graph name other →
        graph.containsEntity other identity = false := by
  constructor
  · intro h identity hidentity other hreaches
    rw [Bool.eq_false_iff]
    intro howns
    exact h ⟨other, hreaches, hasChanges_iff.mpr ⟨identity, hidentity, howns⟩⟩
  · intro h hchanges
    obtain ⟨other, hreaches, hother⟩ := hchanges
    obtain ⟨identity, hidentity, howns⟩ := hasChanges_iff.mp hother
    rw [h identity hidentity other hreaches] at howns
    cases howns

/-- Asking the module itself and then the others that the traversal finds misses nothing. -/
theorem reachesChanges_iff :
    ReachesChanges graph set name ↔ graph.hasChanges set name = true ∨
      ∃ other ∈ (graph.reachable name).filter (· ≠ name), graph.hasChanges set other = true := by
  constructor
  · intro h
    obtain ⟨other, hreaches, hother⟩ := h
    by_cases heq : other = name
    · exact Or.inl (heq ▸ hother)
    · have hfound : other ∈ graph.reachable name := (mem_reachable_iff _ _ _).mpr hreaches
      exact Or.inr ⟨other, List.mem_filter.mpr ⟨hfound, by simpa using heq⟩, hother⟩
  · intro h
    rcases h with hown | ⟨other, hmem, hother⟩
    · exact ⟨name, Reaches.refl name, hown⟩
    · have hfound : other ∈ graph.reachable name := (List.mem_filter.mp hmem).1
      exact ⟨other, (mem_reachable_iff _ _ _).mp hfound, hother⟩

theorem shouldRun_skip_iff :
    (graph.shouldRun name set).verdict = .skip ↔
      set.entities ≠ [] ∧ ¬ ReachesChanges graph set name := by
  rw [reachesChanges_iff]
  unfold shouldRun
  by_cases hentities : set.entities = []
  · rw [hentities]
    split <;> simp
  rw [isEmpty_of_entities_ne_nil hentities, List.isEmpty_eq_false_iff.mpr hentities]
  simp only [Bool.false_eq_true, if_false]
  split
  · next hown => simp [hown]
  · next hown =>
    split
    · next dependency hfind =>
      have hmem := List.mem_of_find?_eq_some hfind
      constructor
      · intro h
        cases h
      · intro h
        exact absurd (Or.inr ⟨dependency, hmem, List.find?_some hfind⟩) h.2
    · next hfind =>
      refine ⟨fun _ => ⟨hentities, ?_⟩, fun _ => rfl⟩
      intro h
      rcases h with h | ⟨other, hmem, h⟩
      · exact hown h
      · exact List.find?_eq_none.mp hfind other hmem h

theorem decide_skip_iff {found : DetectionOutcome} :
    (graph.decide name found).verdict = .skip ↔
      ∃ set, found = .changes set ∧ (graph.shouldRun name set).verdict = .skip := by
  cases found with
  | changes set => simp [decide]
  | failed error => simp [decide]

end ModuleGraph

namespace Selector

variable (selector : Selector) (read : BaselineReader) (graph : ModuleGraph)
variable (standing : Standing) (candidate : TestCandidate)

theorem module?_eq_some_iff {graph : ModuleGraph} {candidate : TestCandidate} {name : String} :
    module? graph candidate = some name ↔
      candidate.method = none ∧ graph.moduleForPackage candidate.package = some name := by
  unfold module?
  cases candidate.method <;> simp

theorem detect_value (calls : Nat) :
    (selector.detect read calls).value =
      match (selector.source.report read calls).value with
      | .ok paths => .changes (selector.layout.changes paths)
      | .error error => .failed error := by
  unfold detect Logged.bind
  cases (selector.source.report read calls).value <;> rfl

theorem outcome_fresh (calls : Nat) :
    (selector.outcome read ⟨calls, {}⟩).value.1 = (selector.detect read calls).value := rfl

theorem evaluate_of_module? {name : String} (h : module? graph candidate = some name) :
    (selector.evaluate read graph standing candidate).value.1 =
      graph.decide name (selector.outcome read standing).value.1 := by
  unfold evaluate
  rw [h]
  rfl

theorem evaluate_of_unlocated (h : module? graph candidate = none) :
    (selector.evaluate read graph standing candidate).value.1 = unlocated candidate := by
  unfold evaluate
  rw [h]

theorem unlocated_run : (unlocated candidate).verdict = .run := by
  unfold unlocated
  split <;> rfl

/-- A candidate is skipped when it is located and the verdict of its module is to skip. -/
theorem evaluate_skip_iff_decide :
    (selector.evaluate read graph standing candidate).value.1.verdict = .skip ↔
      ∃ name, module? graph candidate = some name ∧
        (graph.decide name (selector.outcome read standing).value.1).verdict = .skip := by
  cases hmodule : module? graph candidate with
  | none =>
    rw [evaluate_of_unlocated selector read graph standing candidate hmodule,
      unlocated_run candidate]
    simp
  | some name =>
    rw [evaluate_of_module? selector read graph standing candidate hmodule]
    simp

theorem decide_detect_skip_iff (calls : Nat) (name : String) :
    (graph.decide name (selector.detect read calls).value).verdict = .skip ↔
      ∃ paths, (selector.source.report read calls).value = .ok paths ∧
        Unaffected selector.layout graph paths name := by
  rw [detect_value, ModuleGraph.decide_skip_iff]
  cases hreport : (selector.source.report read calls).value with
  | error error => simp
  | ok paths =>
    have hskip : (graph.shouldRun name (selector.layout.changes paths)).verdict = .skip ↔
        Unaffected selector.layout graph paths name := by
      rw [ModuleGraph.shouldRun_skip_iff, ModuleGraph.not_reachesChanges_iff]
      simp only [SourceLayout.mem_entities_changes]
      constructor
      · rintro ⟨hentities, hapart⟩
        obtain ⟨identity, hidentity⟩ := List.exists_mem_of_ne_nil _ hentities
        obtain ⟨path, hpath, hunit⟩ := SourceLayout.mem_entities_changes.mp hidentity
        refine ⟨⟨path, hpath, identity, hunit⟩, ?_⟩
        intro path hpath identity hunit
        exact hapart identity ⟨path, hpath, hunit⟩
      · rintro ⟨⟨path, hpath, identity, hunit⟩, hapart⟩
        refine ⟨List.ne_nil_of_mem (SourceLayout.mem_entities_changes.mpr ⟨path, hpath, hunit⟩), ?_⟩
        rintro identity ⟨path, hpath, hunit⟩
        exact hapart path hpath identity hunit
    simp [hskip]

/-- On a fresh run a candidate is skipped exactly when it names no method, its package has a
module, the source reports its paths, and the units among them leave the module unaffected. It
runs in every other case. -/
theorem evaluate_skip_iff (calls : Nat) :
    let verdict := (selector.evaluate read graph ⟨calls, {}⟩ candidate).value.1.verdict
    let Unconcerned := candidate.method = none ∧
      ∃ name, graph.moduleForPackage candidate.package = some name ∧
        ∃ paths, (selector.source.report read calls).value = .ok paths ∧
          Unaffected selector.layout graph paths name
    (verdict = .skip ↔ Unconcerned) ∧ (verdict = .run ↔ ¬ Unconcerned) := by
  intro verdict Unconcerned
  have hskip : verdict = .skip ↔ Unconcerned := by
    change (selector.evaluate read graph ⟨calls, {}⟩ candidate).value.1.verdict = .skip ↔ _
    rw [evaluate_skip_iff_decide, outcome_fresh]
    simp only [module?_eq_some_iff, decide_detect_skip_iff]
    constructor
    · rintro ⟨name, ⟨hmethod, hmodule⟩, hunaffected⟩
      exact ⟨hmethod, name, hmodule, hunaffected⟩
    · rintro ⟨hmethod, name, hmodule, hunaffected⟩
      exact ⟨name, ⟨hmethod, hmodule⟩, hunaffected⟩
  exact ⟨hskip, Verdict.eq_run_iff.trans (not_congr hskip)⟩

end Selector

end TestSelection
