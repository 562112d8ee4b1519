import Mathlib.Data.List.Nodup
import TestSelection.Detection.Concurrent
import TestSelection.Proofs.CacheSlots

/-!
What the slots of a shared cache have to do with the computations started in them. Every started
computation has a key, the key has one slot, and that slot holds the computation. So the slots tell
of each key what the computations tell, and no key has two computations. Creating a slot, starting
a computation in a vacant slot and storing the outcome of the look-up that started a computation
keep this, and none of them touches what has been stored.
-/

namespace TestSelection

namespace Computation

/-- What the slot of a computation shows of it. -/
def progress (computation : Computation) (number : Nat) : Slot :=
  match computation.outcome with
  | none => .inProgress number
  | some outcome => .filled number outcome

/-- A computation that was started for `starter`: it is filed under its key, and its outcome, once
there is one, is the one that `starter` produces. -/
structure IsOf (computation : Computation) (starter : Lookup) : Prop where
  key_eq : computation.key = starter.key
  outcome_eq : ∀ outcome, computation.outcome = some outcome → outcome = starter.outcome

end Computation

namespace DetectionCache

variable {cache : DetectionCache} {number other : Nat} {key : String} {outcome : DetectionOutcome}
variable {computation : Computation}

theorem getElem?_start :
    (cache.start key).started[number]? = some computation ↔
      cache.started[number]? = some computation ∨
        number = cache.computations ∧ computation = ⟨key, none⟩ := by
  rw [started_start, cache.counted, List.getElem?_append]
  split
  · next hlt => simp [Nat.ne_of_lt hlt]
  · next hge =>
    have hnone : cache.started[number]? = none := List.getElem?_eq_none (Nat.le_of_not_lt hge)
    rw [hnone, List.getElem?_singleton]
    split
    · next heq =>
      have hnumber : number = cache.started.length := by omega
      simp [hnumber, eq_comm]
    · next hne =>
      have hnumber : number ≠ cache.started.length := by omega
      simp [hnumber]

theorem getElem?_store :
    (cache.store number outcome).started[other]? = some computation ↔
      ∃ before, cache.started[other]? = some before ∧
        (if number = other then { before with outcome := some outcome } else before) =
          computation := by
  unfold store
  rw [List.getElem?_modify]
  exact Option.map_eq_some_iff

end DetectionCache

namespace SharedCache

/-- The slots of a cache in which computations were started for `starts`, one after the other. -/
structure Coherent (shared : SharedCache) (starts : List Lookup) : Prop where
  slots_nodup : shared.slots.Nodup
  key_mem_slots : ∀ computation ∈ shared.cache.started, computation.key ∈ shared.slots
  begun_iff : ∀ address number, shared.begun address = some number ↔
    ∃ computation, shared.cache.started[number]? = some computation ∧
      shared.slots[address]? = some computation.key
  length_eq : shared.cache.computations = starts.length
  isOf : ∀ (number : Nat) (computation : Computation) (starter : Lookup),
    shared.cache.started[number]? = some computation → starts[number]? = some starter →
      computation.IsOf starter

/-- Nothing that `before` holds is gone or different in `after`, except that an outcome may have
been added to a computation that had none. -/
structure GrowsTo (before after : SharedCache) : Prop where
  slots_prefix : before.slots <+: after.slots
  stored : ∀ (number : Nat) (computation : Computation),
    before.cache.started[number]? = some computation → computation.outcome ≠ none →
      after.cache.started[number]? = some computation

/-- `before` and `after` have the same computation under `key`, if any. -/
def SameAt (key : String) (before after : SharedCache) : Prop :=
  ∀ (number : Nat) (computation : Computation), computation.key = key →
    (after.cache.started[number]? = some computation ↔
      before.cache.started[number]? = some computation)

variable {shared : SharedCache} {starts : List Lookup} {lookup : Lookup}
variable {address number : Nat} {key other : String} {computation : Computation}

theorem coherent_fresh : Coherent {} [] where
  slots_nodup := List.nodup_nil
  key_mem_slots computation h := absurd h List.not_mem_nil
  begun_iff address number := by simp
  length_eq := rfl
  isOf number computation starter h := by simp at h

theorem getElem?_of_prefix {α : Type} {before after : List α} (h : before <+: after) {index : Nat}
    {member : α} (hmember : before[index]? = some member) : after[index]? = some member := by
  obtain ⟨hlt, rfl⟩ := List.getElem?_eq_some_iff.mp hmember
  exact List.prefix_iff_getElem?.mp h index hlt

theorem GrowsTo.refl (shared : SharedCache) : GrowsTo shared shared :=
  ⟨List.prefix_refl _, fun _ _ h _ => h⟩

theorem eq_of_slots (h : shared.slots.Nodup) {other : Nat}
    (haddress : shared.slots[address]? = some key) (hother : shared.slots[other]? = some key) :
    other = address := by
  obtain ⟨hlt, _⟩ := List.getElem?_eq_some_iff.mp hother
  exact (List.getElem?_inj hlt h).mp (hother.trans haddress.symm)

/-- Looking through the slots leads to the slot that a worker on the same key holds. -/
theorem slot_eq_content (h : shared.slots.Nodup) (haddress : shared.slots[address]? = some key) :
    shared.slot key = shared.content address := by
  unfold slot
  split
  · next hnone =>
    exact absurd (List.mem_of_getElem? haddress) (List.idxOf?_eq_none_iff.mp hnone)
  · next other hidx =>
    obtain ⟨hlt, hget, _⟩ := List.idxOf?_eq_some_iff.mp hidx
    rw [eq_of_slots h haddress (List.getElem?_eq_some_iff.mpr ⟨hlt, hget⟩)]

theorem content_of_begun (h : shared.begun address = some number)
    (hstarted : shared.cache.started[number]? = some computation) :
    shared.content address = computation.progress number := by
  obtain ⟨key, outcome⟩ := computation
  cases outcome <;> simp [content, Computation.progress, h, hstarted]

namespace Coherent

theorem started_length (h : Coherent shared starts) :
    shared.cache.started.length = starts.length :=
  shared.cache.counted.symm.trans h.length_eq

/-- The computations under one key are one. -/
theorem number_eq (h : Coherent shared starts) {other : Nat} {otherComputation : Computation}
    (hnumber : shared.cache.started[number]? = some computation)
    (hother : shared.cache.started[other]? = some otherComputation)
    (hkey : otherComputation.key = computation.key) : other = number := by
  obtain ⟨address, haddress⟩ := List.mem_iff_getElem?.mp
    (h.key_mem_slots computation (List.mem_of_getElem? hnumber))
  have hbegun : shared.begun address = some number :=
    (h.begun_iff address number).mpr ⟨computation, hnumber, haddress⟩
  have hbegun' : shared.begun address = some other :=
    (h.begun_iff address other).mpr ⟨otherComputation, hother, hkey ▸ haddress⟩
  exact Option.some.inj (hbegun'.symm.trans hbegun)

theorem slot_of_started (h : Coherent shared starts)
    (hstarted : shared.cache.started[number]? = some computation) :
    shared.slot computation.key = computation.progress number := by
  obtain ⟨address, haddress⟩ := List.mem_iff_getElem?.mp
    (h.key_mem_slots computation (List.mem_of_getElem? hstarted))
  rw [slot_eq_content h.slots_nodup haddress]
  exact content_of_begun ((h.begun_iff address number).mpr ⟨computation, hstarted, haddress⟩)
    hstarted

theorem slot_of_not_started (h : Coherent shared starts)
    (hnone : ∀ computation ∈ shared.cache.started, computation.key ≠ key) :
    shared.slot key = .vacant := by
  by_cases hmem : key ∈ shared.slots
  · obtain ⟨address, haddress⟩ := List.mem_iff_getElem?.mp hmem
    rw [slot_eq_content h.slots_nodup haddress]
    unfold content
    split
    · rfl
    · next number hbegun =>
      obtain ⟨computation, hstarted, hslot⟩ := (h.begun_iff address number).mp hbegun
      rw [haddress] at hslot
      exact absurd (Option.some.inj hslot).symm
        (hnone computation (List.mem_of_getElem? hstarted))
  · unfold slot
    rw [List.idxOf?_eq_none_iff.mpr hmem]

theorem slot_eq_of_sameAt {after : SharedCache} {starts' : List Lookup}
    (h : Coherent shared starts) (hafter : Coherent after starts')
    (hsame : SameAt key shared after) : after.slot key = shared.slot key := by
  by_cases hstarted : ∃ computation ∈ shared.cache.started, computation.key = key
  · obtain ⟨computation, hmem, rfl⟩ := hstarted
    obtain ⟨number, hnumber⟩ := List.mem_iff_getElem?.mp hmem
    rw [h.slot_of_started hnumber,
      hafter.slot_of_started ((hsame number computation rfl).mpr hnumber)]
  · have hnone : ∀ computation ∈ shared.cache.started, computation.key ≠ key :=
      fun computation hmem hkey => hstarted ⟨computation, hmem, hkey⟩
    have hnone' : ∀ computation ∈ after.cache.started, computation.key ≠ key := by
      intro computation hmem hkey
      obtain ⟨number, hnumber⟩ := List.mem_iff_getElem?.mp hmem
      exact hnone computation (List.mem_of_getElem? ((hsame number computation hkey).mp hnumber))
        hkey
    rw [h.slot_of_not_started hnone, hafter.slot_of_not_started hnone']

theorem get?_eq_some_iff (h : Coherent shared starts) {outcome : DetectionOutcome} :
    shared.get? key = some (number, outcome) ↔
      shared.cache.started[number]? = some ⟨key, some outcome⟩ := by
  unfold get?
  constructor
  · intro hget
    by_cases hstarted : ∃ computation ∈ shared.cache.started, computation.key = key
    · obtain ⟨⟨_, found⟩, hmem, rfl⟩ := hstarted
      obtain ⟨found?, hfound⟩ := List.mem_iff_getElem?.mp hmem
      rw [h.slot_of_started hfound] at hget
      cases found with
      | none => cases hget
      | some outcome =>
        cases hget
        exact hfound
    · rw [h.slot_of_not_started fun computation hmem hkey =>
        hstarted ⟨computation, hmem, hkey⟩] at hget
      cases hget
  · intro hstarted
    have hslot := h.slot_of_started hstarted
    simp only [Computation.progress] at hslot
    rw [hslot]

theorem nodup_keys (h : Coherent shared starts) : (starts.map Lookup.key).Nodup := by
  rw [List.nodup_iff_getElem?_ne_getElem?]
  intro first second hlt hsecond heq
  rw [List.length_map] at hsecond
  have hstarts : ∀ number, number < starts.length → ∃ computation starter,
      shared.cache.started[number]? = some computation ∧ starts[number]? = some starter ∧
        computation.key = starter.key := by
    intro number hnumber
    have hcomputations : number < shared.cache.started.length := h.started_length ▸ hnumber
    exact ⟨_, _, List.getElem?_eq_getElem hcomputations, List.getElem?_eq_getElem hnumber,
      (h.isOf number _ _ (List.getElem?_eq_getElem hcomputations)
        (List.getElem?_eq_getElem hnumber)).key_eq⟩
  obtain ⟨computation, starter, hstarted, hstarter, hkey⟩ := hstarts first (by omega)
  obtain ⟨computation', starter', hstarted', hstarter', hkey'⟩ := hstarts second hsecond
  rw [List.getElem?_map, List.getElem?_map, hstarter, hstarter'] at heq
  have hsame : starter.key = starter'.key := Option.some.inj heq
  have hnumber := h.number_eq hstarted hstarted' (by rw [hkey, hkey', hsame])
  omega

end Coherent

theorem slots_prefix_openSlot (shared : SharedCache) (key : String) :
    shared.slots <+: (shared.openSlot key).slots := by
  unfold openSlot Workshop.openSlot
  split
  · exact List.prefix_refl _
  · exact List.prefix_append _ _

theorem mem_slots_openSlot (shared : SharedCache) (key : String) :
    key ∈ (shared.openSlot key).slots := by
  unfold openSlot Workshop.openSlot
  split
  · next h => exact List.contains_iff_mem.mp h
  · exact List.mem_append_right _ List.mem_cons_self

theorem nodup_slots_openSlot (h : shared.slots.Nodup) (key : String) :
    (shared.openSlot key).slots.Nodup := by
  unfold openSlot Workshop.openSlot
  split
  · exact h
  · next hnew =>
    refine List.nodup_append.mpr ⟨h, List.nodup_singleton key, ?_⟩
    intro other hother new hmem heq
    rw [List.mem_singleton.mp hmem] at heq
    exact hnew (List.contains_iff_mem.mpr (heq ▸ hother))

theorem growsTo_openSlot (shared : SharedCache) (key : String) :
    GrowsTo shared (shared.openSlot key) :=
  ⟨slots_prefix_openSlot shared key, fun _ _ h _ => h⟩

theorem growsTo_start (shared : SharedCache) (address : Nat) (key : String) :
    GrowsTo shared (shared.start address key) :=
  ⟨List.prefix_refl _, fun _ _ h _ => DetectionCache.getElem?_start.mpr (Or.inl h)⟩

theorem sameAt_start (h : other ≠ key) : SameAt key shared (shared.start address other) := by
  intro number computation hkey
  refine DetectionCache.getElem?_start.trans (or_iff_left ?_)
  rintro ⟨_, rfl⟩
  exact h hkey

theorem sameAt_store (hstored : ∀ computation,
    shared.cache.started[number]? = some computation → computation.key ≠ key)
    (outcome : DetectionOutcome) : SameAt key shared (shared.store number outcome) := by
  intro other computation hkey
  refine DetectionCache.getElem?_store.trans ?_
  constructor
  · rintro ⟨before, hbefore, rfl⟩
    split at hkey
    · next heq =>
      subst heq
      exact absurd hkey (hstored before hbefore)
    · next hne => rwa [if_neg hne]
  · intro hbefore
    refine ⟨computation, hbefore, if_neg ?_⟩
    rintro rfl
    exact hstored computation hbefore hkey

namespace Coherent

theorem openSlot (h : Coherent shared starts) (key : String) :
    Coherent (shared.openSlot key) starts where
  slots_nodup := nodup_slots_openSlot h.slots_nodup key
  key_mem_slots computation hmem :=
    (slots_prefix_openSlot shared key).subset (h.key_mem_slots computation hmem)
  begun_iff address number := by
    have hprefix := slots_prefix_openSlot shared key
    refine (h.begun_iff address number).trans (exists_congr fun computation => ?_)
    refine and_congr_right fun hstarted => ?_
    have hkept : ∀ address : Nat, shared.slots[address]? = some computation.key →
        (shared.openSlot key).slots[address]? = some computation.key :=
      fun address haddress => getElem?_of_prefix hprefix haddress
    refine ⟨hkept address, ?_⟩
    intro haddress
    obtain ⟨old, hold⟩ := List.mem_iff_getElem?.mp
      (h.key_mem_slots computation (List.mem_of_getElem? hstarted))
    rwa [eq_of_slots (nodup_slots_openSlot h.slots_nodup key) (hkept old hold) haddress]
  length_eq := h.length_eq
  isOf := h.isOf

/-- A computation that is started in a vacant slot is the first one under its key. -/
theorem start (h : Coherent shared starts) (hslot : shared.slots[address]? = some lookup.key)
    (hvacant : shared.begun address = none) :
    Coherent (shared.start address lookup.key) (starts ++ [lookup]) where
  slots_nodup := h.slots_nodup
  key_mem_slots computation hmem := by
    rcases List.mem_append.mp hmem with hmem | hmem
    · exact h.key_mem_slots computation hmem
    · rw [List.mem_singleton.mp hmem]
      exact List.mem_of_getElem? hslot
  begun_iff other number := by
    by_cases hother : other = address
    · subst hother
      have hbegun : (shared.start other lookup.key).begun other = some shared.cache.computations :=
        if_pos rfl
      rw [hbegun]
      constructor
      · intro heq
        cases heq
        exact ⟨⟨lookup.key, none⟩, DetectionCache.getElem?_start.mpr (Or.inr ⟨rfl, rfl⟩), hslot⟩
      · rintro ⟨computation, hstarted, hkey⟩
        rcases DetectionCache.getElem?_start.mp hstarted with hstarted | ⟨hnumber, _⟩
        · rw [(h.begun_iff other number).mpr ⟨computation, hstarted, hkey⟩] at hvacant
          cases hvacant
        · rw [hnumber]
    · have hbegun : (shared.start address lookup.key).begun other = shared.begun other :=
        if_neg hother
      rw [hbegun]
      refine (h.begun_iff other number).trans (exists_congr fun computation => ?_)
      refine and_congr_left fun hkey => ?_
      refine (DetectionCache.getElem?_start.trans (or_iff_left ?_)).symm
      rintro ⟨_, rfl⟩
      exact hother (eq_of_slots h.slots_nodup hslot hkey)
  length_eq := by
    rw [List.length_append, List.length_singleton, ← h.length_eq]
    rfl
  isOf number computation starter hstarted hstarter := by
    rcases DetectionCache.getElem?_start.mp hstarted with hstarted | ⟨hnumber, rfl⟩
    · obtain ⟨hlt, _⟩ := List.getElem?_eq_some_iff.mp hstarted
      rw [List.getElem?_append_left (h.started_length ▸ hlt)] at hstarter
      exact h.isOf number computation starter hstarted hstarter
    · rw [hnumber, h.length_eq, List.getElem?_concat_length] at hstarter
      cases hstarter
      refine ⟨rfl, ?_⟩
      intro outcome houtcome
      cases houtcome

/-- Storing the outcome of the look-up that started a computation completes the computation. -/
theorem store (h : Coherent shared starts) (hstarter : starts[number]? = some lookup) :
    Coherent (shared.store number lookup.outcome) starts where
  slots_nodup := h.slots_nodup
  key_mem_slots computation hmem := by
    obtain ⟨other, hstored⟩ := List.mem_iff_getElem?.mp hmem
    obtain ⟨before, hbefore, rfl⟩ := DetectionCache.getElem?_store.mp hstored
    have hkey := h.key_mem_slots before (List.mem_of_getElem? hbefore)
    split <;> exact hkey
  begun_iff address other := by
    refine (h.begun_iff address other).trans ?_
    constructor
    · rintro ⟨before, hbefore, hkey⟩
      refine ⟨_, DetectionCache.getElem?_store.mpr ⟨before, hbefore, rfl⟩, ?_⟩
      split <;> exact hkey
    · rintro ⟨computation, hstored, hkey⟩
      obtain ⟨before, hbefore, rfl⟩ := DetectionCache.getElem?_store.mp hstored
      refine ⟨before, hbefore, ?_⟩
      split at hkey <;> exact hkey
  length_eq := h.length_eq
  isOf other computation starter hstored hother := by
    obtain ⟨before, hbefore, rfl⟩ := DetectionCache.getElem?_store.mp hstored
    have hisOf := h.isOf other before starter hbefore hother
    split
    · next heq =>
      subst heq
      rw [hstarter] at hother
      cases hother
      refine ⟨hisOf.key_eq, ?_⟩
      intro outcome houtcome
      cases houtcome
      rfl
    · exact hisOf

/-- An outcome that has been stored is that of the look-up that started the computation, so no
other can take its place. -/
theorem growsTo_store (h : Coherent shared starts) (hstarter : starts[number]? = some lookup) :
    GrowsTo shared (shared.store number lookup.outcome) where
  slots_prefix := List.prefix_refl _
  stored other computation hstarted houtcome := by
    refine DetectionCache.getElem?_store.mpr ⟨computation, hstarted, ?_⟩
    split
    · next heq =>
      subst heq
      obtain ⟨outcome, hsome⟩ := Option.ne_none_iff_exists'.mp houtcome
      rw [← (h.isOf _ _ _ hstarted hstarter).outcome_eq outcome hsome, ← hsome]
    · rfl

end Coherent

end SharedCache

end TestSelection
