import TestSelection.Detection.Cache

/-!
What starting a computation and storing its outcome do to the slots of a cache: they change the slot
of one key, and leave those of all other keys as they are.
-/

namespace TestSelection

namespace DetectionCache

variable {cache : DetectionCache} {key other : String} {number : Nat} {outcome : DetectionOutcome}

@[simp] theorem started_start :
    (cache.start key).started = cache.started ++ [⟨key, none⟩] := rfl

theorem slot_eq_vacant_iff :
    cache.slot key = .vacant ↔ ∀ computation ∈ cache.started, computation.key ≠ key := by
  unfold slot
  split
  case h_1 h => simpa using h
  case h_2 number h =>
    obtain ⟨hlt, hkey, _⟩ := List.findIdx?_eq_some_iff_getElem.mp h
    have hkey : cache.started[number].key = key := by simpa using hkey
    constructor
    · intro hslot
      split at hslot <;> contradiction
    · intro hfree
      exact absurd hkey (hfree _ (List.getElem_mem hlt))

theorem slot_start_self (h : cache.slot key = .vacant) :
    (cache.start key).slot key = .inProgress cache.computations := by
  have hnone : (cache.started.findIdx? fun computation => computation.key = key) = none := by
    simpa using slot_eq_vacant_iff.mp h
  simp [slot, start, List.findIdx?_append, hnone, cache.counted]

theorem slot_start_of_ne (h : key ≠ other) : (cache.start key).slot other = cache.slot other := by
  simp only [slot, start, List.findIdx?_append, List.findIdx?_singleton]
  cases hfound : cache.started.findIdx? fun computation => computation.key = other with
  | none => simp [h]
  | some number =>
    obtain ⟨hlt, _⟩ := List.findIdx?_eq_some_iff_getElem.mp hfound
    simp [List.getElem?_append_left hlt]

/-- Storing an outcome does not move a key to another computation. -/
theorem findIdx?_store : ((cache.store number outcome).started.findIdx?
      fun computation => computation.key = other) =
    cache.started.findIdx? fun computation => computation.key = other := by
  have hkeys : (cache.store number outcome).started.map (·.key) = cache.started.map (·.key) := by
    apply List.ext_getElem?
    intro index
    simp only [store, List.getElem?_map, List.getElem?_modify, Option.map_eq_map, Option.map_map]
    congr 1
    funext computation
    dsimp only [Function.comp]
    split <;> rfl
  have hcongr := congrArg (List.findIdx? (· = other)) hkeys
  rw [List.findIdx?_map, List.findIdx?_map] at hcongr
  exact hcongr

theorem slot_eq_inProgress_iff : cache.slot key = .inProgress number ↔
    (cache.started.findIdx? fun computation => computation.key = key) = some number ∧
      (cache.started[number]?).bind (·.outcome) = none := by
  unfold slot
  split
  case h_1 h => simp [h]
  case h_2 found h =>
    split
    case h_1 hnone =>
      constructor
      · intro hslot
        cases hslot
        exact ⟨h, hnone⟩
      · rintro ⟨hfound, _⟩
        rw [h] at hfound
        cases hfound
        rfl
    case h_2 stored hsome =>
      constructor
      · intro hslot
        cases hslot
      · rintro ⟨hfound, hnone⟩
        rw [h] at hfound
        cases hfound
        rw [hsome] at hnone
        cases hnone

theorem slot_store_self (h : cache.slot key = .inProgress number) :
    (cache.store number outcome).slot key = .filled number outcome := by
  obtain ⟨hfound, _⟩ := slot_eq_inProgress_iff.mp h
  obtain ⟨hlt, _⟩ := List.findIdx?_eq_some_iff_getElem.mp hfound
  unfold slot
  rw [findIdx?_store, hfound]
  simp [store, hlt]

theorem slot_store_of_ne (h : cache.slot key = .inProgress number) (hne : key ≠ other) :
    (cache.store number outcome).slot other = cache.slot other := by
  obtain ⟨hfound, _⟩ := slot_eq_inProgress_iff.mp h
  obtain ⟨hlt, hkey, _⟩ := List.findIdx?_eq_some_iff_getElem.mp hfound
  unfold slot
  rw [findIdx?_store]
  cases hother : cache.started.findIdx? fun computation => computation.key = other with
  | none => rfl
  | some place =>
    obtain ⟨hplace, hkey', _⟩ := List.findIdx?_eq_some_iff_getElem.mp hother
    have hapart : number ≠ place := by
      intro heq
      subst heq
      simp only [decide_eq_true_eq] at hkey hkey'
      exact hne (hkey.symm.trans hkey')
    simp [store, hapart]

theorem get?_eq_some_iff :
    cache.get? key = some (number, outcome) ↔ cache.slot key = .filled number outcome := by
  unfold get?
  cases cache.slot key <;> simp

@[simp] theorem computations_start : (cache.start key).computations = cache.computations + 1 := rfl

@[simp] theorem computations_store :
    (cache.store number outcome).computations = cache.computations := rfl

end DetectionCache

end TestSelection
