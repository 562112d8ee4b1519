import Mathlib.Data.List.Basic
import TestSelection.Proofs.Obstacles
import TestSelection.Proofs.StatedTexts

/-!
What registrations come to, and what a selection picks. Whatever is registered and in whatever
order, a key leads to the factory that was registered last under it, and the keys are listed once
each in ascending order. A selection asks the registry only if it sets a detector; a reference
commit, or neither of the two, leads to the same source whatever is registered.
-/

namespace TestSelection.Registry

abbrev Registration := String × SourceFactory

/-- The registrations that the built-in registry consists of. -/
def builtinRegistrations : List Registration :=
  [(uncommittedKey, fun _ => Logged.pure (.repository .uncommitted)),
    (unpushedKey, fun _ => Logged.pure (.repository .unpushed)), (diffKey, diffSource)]

/-- A registry that was empty or the built-in one at first, with all its registrations, the earliest
first. -/
inductive Holds : Registry → List Registration → Prop
  | empty : Holds empty []
  | builtin : Holds builtin builtinRegistrations
  | register {registry : Registry} {history : List Registration} (h : Holds registry history)
      (key : String) (factory : SourceFactory) :
      Holds (registry.register key factory) (history ++ [(key, factory)])

/-- The last registration under a key is that of `factory`. -/
def LastUnder (history : List Registration) (key : String) (factory : SourceFactory) : Prop :=
  ∃ before after, history = before ++ (key, factory) :: after ∧ ∀ entry ∈ after, entry.1 ≠ key

variable {registry : Registry} {history : List Registration} {selection : Selection}
  {key other : String} {factory last : SourceFactory}

theorem lastUnder_concat :
    LastUnder (history ++ [(key, factory)]) other last ↔
      if other = key then last = factory else LastUnder history other last := by
  constructor
  · rintro ⟨before, after, hsplit, hafter⟩
    rcases after.eq_nil_or_concat with rfl | ⟨front, entry, rfl⟩
    · obtain ⟨_, hentry⟩ := List.append_inj' hsplit rfl
      cases hentry
      simp
    · have hlast : history ++ [(key, factory)] = (before ++ (other, last) :: front) ++ [entry] := by
        simpa using hsplit
      obtain ⟨hhistory, hentry⟩ := List.append_inj' hlast rfl
      cases hentry
      have hkey : key ≠ other := hafter (key, factory) (by simp)
      rw [if_neg hkey.symm]
      exact ⟨before, front, hhistory, fun entry hentry => hafter entry (by simp [hentry])⟩
  · intro h
    split at h
    · next hkey =>
      subst hkey
      exact ⟨history, [], by rw [h], by simp⟩
    · next hkey =>
      obtain ⟨before, after, rfl, hafter⟩ := h
      refine ⟨before, after ++ [(key, factory)], by simp, fun entry hentry => ?_⟩
      rcases List.mem_append.mp hentry with hentry | hentry
      · exact hafter entry hentry
      · rw [List.mem_singleton.mp hentry]
        exact fun h => hkey h.symm

section Place

theorem keys_register :
    (registry.register key factory).keys = Ascending.insert key registry.keys := by
  unfold keys register
  induction registry.entries with
  | nil => rfl
  | cons entry rest ih =>
    simp only [place, List.map_cons, Ascending.insert]
    split
    · rfl
    · split
      · rw [List.map_cons, ih]
      · next hbefore hafter =>
        rw [List.map_cons, Ascending.StrictTotal.eq_of_not_lt hbefore hafter]

theorem find?_register :
    (registry.register key factory).find? other =
      if other = key then some factory else registry.find? other := by
  unfold find? register
  induction registry.entries with
  | nil => by_cases h : other = key <;> simp [place, h, eq_comm]
  | cons entry rest ih =>
    simp only [place]
    split
    · by_cases h : other = key <;> simp [h, eq_comm]
    · split
      · next hafter =>
        by_cases hentry : entry.1 = other
        · have hother : other ≠ key := fun h => String.lt_irrefl key (by rwa [hentry, h] at hafter)
          simp [hentry, hother]
        · simp only [List.find?_cons, hentry, decide_false]
          exact ih
      · next hbefore hafter =>
        have hkey : key = entry.1 := Ascending.StrictTotal.eq_of_not_lt hbefore hafter
        by_cases h : other = key <;> simp [h, ← hkey, eq_comm]

end Place

/-- What a registry has to do with its registrations. -/
structure Reflects (registry : Registry) (history : List Registration) : Prop where
  keys_eq : registry.keys = Ascending.ofList (history.map (·.1))
  find?_eq : ∀ key factory, registry.find? key = some factory ↔ LastUnder history key factory

theorem reflects_empty : Reflects empty [] where
  keys_eq := rfl
  find?_eq key factory := by simp [empty, find?, LastUnder]

theorem Reflects.register (h : Reflects registry history) (key : String) (factory : SourceFactory) :
    Reflects (registry.register key factory) (history ++ [(key, factory)]) where
  keys_eq := by
    rw [keys_register, h.keys_eq, Ascending.ofList, Ascending.ofList, List.map_append,
      List.foldl_append]
    rfl
  find?_eq other last := by
    rw [find?_register, lastUnder_concat, ← h.find?_eq]
    split
    · rw [Option.some_inj, eq_comm]
    · rfl

theorem Holds.reflects (h : Holds registry history) : Reflects registry history := by
  induction h with
  | empty => exact reflects_empty
  | builtin => exact ((reflects_empty.register _ _).register _ _).register _ _
  | register _ key factory ih => exact ih.register key factory

theorem Holds.mem_keys_iff (h : Holds registry history) :
    key ∈ registry.keys ↔ ∃ factory, (key, factory) ∈ history := by
  rw [h.reflects.keys_eq, Ascending.mem_ofList]
  simp

theorem Holds.pairwise_keys (h : Holds registry history) : registry.keys.Pairwise (· < ·) := by
  rw [h.reflects.keys_eq]
  exact Ascending.pairwise_ofList _

theorem Holds.find?_eq_none (h : Holds registry history)
    (hnone : ∀ entry ∈ history, entry.1 ≠ key) : registry.find? key = none := by
  rw [find?_eq_none_iff, h.mem_keys_iff]
  rintro ⟨factory, hentry⟩
  exact hnone _ hentry rfl

section Select

theorem select_of_registered (hkey : selection.detector? = some key)
    (hfactory : registry.find? key = some factory) :
    (registry.select selection).value = .ok (factory selection).value := by
  simp [select, hkey, create, hfactory, Logged.bind, Logged.pure]

theorem select_of_unregistered (hkey : selection.detector? = some key)
    (hnone : registry.find? key = none) :
    (registry.select selection).value =
      .error (.config (.unknownDetector key registry.keys) none) := by
  simp [select, hkey, create, hnone, Logged.bind, Logged.pure]

theorem select_of_reference {revision : String} (hdetector : selection.detector? = none)
    (hrevision : selection.referenceCommit? = some revision) :
    (registry.select selection).value = .ok (.repository (.revision revision)) := by
  simp [select, hdetector, hrevision]

theorem select_of_unset (hdetector : selection.detector? = none)
    (hreference : selection.referenceCommit? = none) :
    (registry.select selection).value = .ok (.repository .unpushed) := by
  simp [select, hdetector, hreference]

end Select

/-- What is said of a key that nothing is registered under. -/
def unknownText (key : String) (available : List String) : String :=
  "unknown change detector `" ++ key ++ "` (available: " ++ ", ".intercalate available ++ ")"

theorem message_unknownDetector {available : List String} :
    (Failure.config (.unknownDetector key available) none).message =
      "config error: " ++ unknownText key available := by
  have hfault : ConfigFault.message (.unknownDetector key available) =
      unknownText key available := by
    unfold ConfigFault.message unknownText
    simp only [toString]
  rw [← hfault]
  rfl

theorem states_diffKey : Text.stated? diffKey = some diffKey := by decide

theorem states_unpushedKey : Text.stated? unpushedKey = some unpushedKey := by decide

/-- A selection that sets a detector gets what was registered last under its key, or, if nothing
was, an error that lists the keys once each in ascending order, whatever the reference commit is.
One that sets none gets the comparison with the reference commit that it sets, or else with the
tracked branch, whatever is registered; the built-in registry has these two under keys as well. -/
theorem selected_by_precedence (h : Holds registry history) (selection : Selection) :
    (∀ key, Selection.Sets selection.detector key →
      (∀ factory, LastUnder history key factory →
        (registry.select selection).value = .ok (factory selection).value) ∧
      ((∀ entry ∈ history, entry.1 ≠ key) → ∃ available failure,
        available.Pairwise (· < ·) ∧
        (∀ name, name ∈ available ↔ ∃ factory, (name, factory) ∈ history) ∧
        failure = .config (.unknownDetector key available) none ∧
        failure.message = "config error: " ++ unknownText key available ∧
        ∀ reference, (registry.select { selection with referenceCommit := reference }).value =
          .error failure)) ∧
    (Selection.Unset selection.detector →
      (∀ revision, Selection.Sets selection.referenceCommit revision →
        (∀ other : Registry,
          (other.select selection).value = .ok (.repository (.revision revision))) ∧
        (builtin.select { selection with detector := some diffKey }).value =
          .ok (.repository (.revision revision))) ∧
      (Selection.Unset selection.referenceCommit →
        (∀ other : Registry, (other.select selection).value = .ok (.repository .unpushed)) ∧
        ∀ reference, (builtin.select ⟨some unpushedKey, reference⟩).value =
          .ok (.repository .unpushed))) := by
  refine ⟨fun key hsets => ⟨fun factory hlast => ?_, fun hnone => ?_⟩,
    fun hdetector => ⟨fun revision hrevision => ⟨fun other => ?_, ?_⟩,
      fun hreference => ⟨fun other => ?_, fun reference => ?_⟩⟩⟩
  · have hfactory := (h.reflects.find?_eq key factory).mpr hlast
    exact select_of_registered (Selection.sets_iff.mpr hsets) hfactory
  · refine ⟨registry.keys, _, h.pairwise_keys, fun name => h.mem_keys_iff, rfl,
      message_unknownDetector, fun reference => ?_⟩
    exact select_of_unregistered (Selection.sets_iff.mpr hsets) (h.find?_eq_none hnone)
  · exact select_of_reference (Selection.unset_iff.mpr hdetector)
      (Selection.sets_iff.mpr hrevision)
  · have hdiff : builtin.find? diffKey = some diffSource := rfl
    have hreference : { selection with detector := some diffKey }.referenceCommit? =
        some revision := Selection.sets_iff.mpr hrevision
    have hkey : { selection with detector := some diffKey }.detector? = some diffKey :=
      states_diffKey
    rw [select_of_registered hkey hdiff, diffSource, hreference]
    rfl
  · exact select_of_unset (Selection.unset_iff.mpr hdetector) (Selection.unset_iff.mpr hreference)
  · have hunpushed : builtin.find? unpushedKey =
        some fun _ => Logged.pure (.repository .unpushed) := rfl
    have hkey : (⟨some unpushedKey, reference⟩ : Selection).detector? = some unpushedKey :=
      states_unpushedKey
    exact select_of_registered hkey hunpushed

/-- A factory is registered under a new key, and another one in its place. The padded key leads to
the later one, and a key that is unknown is answered with the four that are there. -/
theorem selected_by_precedence_in_extended :
    let fixed (description : String) : SourceFactory := fun _ =>
      Logged.pure (.custom "fixed" description fun _ => .ok [])
    let registry := (builtin.register "fixed" (fixed "first")).register "fixed" (fixed "second")
    (registry.select ⟨some " fixed\n", some "v1.0"⟩).value =
      .ok ((fixed "second") ⟨some " fixed\n", some "v1.0"⟩).value ∧
    (∃ available failure, (registry.select ⟨some "nightly", none⟩).value = .error failure ∧
      failure = .config (.unknownDetector "nightly" available) none ∧
      "uncommitted" ∈ available ∧ "fixed" ∈ available) ∧
    (registry.select ⟨some "\t", some " v1.0"⟩).value = .ok (.repository (.revision "v1.0")) := by
  intro fixed registry
  have h : Holds registry (builtinRegistrations ++ [("fixed", fixed "first")] ++
      [("fixed", fixed "second")]) := (Holds.builtin.register _ _).register _ _
  refine ⟨?_, ?_, ?_⟩
  · have hsets : Selection.Sets (some " fixed\n") "fixed" := Selection.sets_iff.mp (by decide)
    exact ((selected_by_precedence h ⟨some " fixed\n", some "v1.0"⟩).1 "fixed" hsets).1 _
      ⟨_, [], rfl, by simp⟩
  · have hsets : Selection.Sets (some "nightly") "nightly" := Selection.sets_iff.mp (by decide)
    obtain ⟨available, failure, _, hmem, hfailure, _, hselect⟩ :=
      ((selected_by_precedence h ⟨some "nightly", none⟩).1 "nightly" hsets).2
        (by simp [builtinRegistrations, uncommittedKey, unpushedKey, diffKey])
    refine ⟨available, failure, hselect none, hfailure, (hmem _).mpr ?_, (hmem _).mpr ?_⟩
    · exact ⟨_, List.mem_cons_self⟩
    · exact ⟨fixed "first", by simp⟩
  · have hunset : Selection.Unset (some "\t") := Selection.unset_iff.mp (by decide)
    have hsets : Selection.Sets (some " v1.0") "v1.0" := Selection.sets_iff.mp (by decide)
    exact (((selected_by_precedence h ⟨some "\t", some " v1.0"⟩).2 hunset).1 "v1.0" hsets).1 registry

end TestSelection.Registry
