import Mathlib.Data.Finset.Card
import TestSelection.Proofs.SharedSlots

/-!
Computing once, whatever the order of steps. Every look-up that a worker is busy with holds the
slot of its own key or the computation that was started for it, and whatever has been answered is
stored. One step keeps this, so it holds at every moment of every run: no key has two computations,
every look-up of a key is answered with the one outcome stored for it, and what is stored stays.
-/

namespace TestSelection

def WorkEvent.started? : WorkEvent → Option Lookup
  | started lookup => some lookup
  | answered _ _ => none

namespace Workshop

/-- The look-ups whose computations have been started, in that order. -/
def starts (workshop : Workshop) : List Lookup :=
  workshop.history.filterMap WorkEvent.started?

/-- What a look-up that a worker is busy with has got hold of. -/
def Fits (shared : SharedCache) (starts : List Lookup) (frame : Frame) : Prop :=
  match frame.stage with
  | .seeking => True
  | .atSlot address => shared.slots[address]? = some frame.lookup.key
  | .computing number _ => starts[number]? = some frame.lookup

/-- `number` is the outcome of the computation that was started under the key of `lookup`, and it
is stored. -/
def IsAnswer (shared : SharedCache) (starts : List Lookup) (lookup : Lookup) (number : Nat) :
    Prop :=
  ∃ starter, starts[number]? = some starter ∧ starter.key = lookup.key ∧
    shared.get? lookup.key = some (number, starter.outcome)

/-- How a worker that carries out `lookup` stands to what is shared. -/
def WorksOn (shared : SharedCache) (starts : List Lookup) (history : List WorkEvent)
    (lookup : Lookup) : Worker → Prop
  | .busy frames =>
    frames.getLast?.map Frame.lookup = some lookup ∧ ∀ frame ∈ frames, Fits shared starts frame
  | .returned number => .answered lookup number ∈ history

/-- What holds at every moment of a run. -/
structure Invariant (lookups : List Lookup) (workshop : Workshop) : Prop where
  coherent : workshop.shared.Coherent workshop.starts
  answered : ∀ lookup number, .answered lookup number ∈ workshop.history →
    IsAnswer workshop.shared workshop.starts lookup number
  length_eq : workshop.workers.length = lookups.length
  worksOn : ∀ (index : Nat) (lookup : Lookup) (worker : Worker),
    lookups[index]? = some lookup → workshop.workers[index]? = some worker →
      WorksOn workshop.shared workshop.starts workshop.history lookup worker

/-- What a step on the key `key` that leaves the worker as `worker` does to what is shared. The
look-up that the worker carries out is the last of `frames`. -/
structure Moves (before : SharedCache) (starts : List Lookup) (history : List WorkEvent)
    (frames : List Frame) (key : String) (after : SharedCache) (worker : Worker)
    (events : List WorkEvent) : Prop where
  coherent : after.Coherent (starts ++ events.filterMap WorkEvent.started?)
  growsTo : before.GrowsTo after
  sameAt : ∀ other, key ≠ other → before.SameAt other after
  answered : ∀ lookup number, .answered lookup number ∈ events →
    IsAnswer after (starts ++ events.filterMap WorkEvent.started?) lookup number
  worksOn : ∀ lookup, frames.getLast?.map Frame.lookup = some lookup →
    WorksOn after (starts ++ events.filterMap WorkEvent.started?) (history ++ events) lookup worker

variable {shared before after : SharedCache} {starts starts' : List Lookup}
variable {history events : List WorkEvent} {lookups : List Lookup} {lookup : Lookup}
variable {frame : Frame} {rest frames : List Frame} {worker : Worker} {number address : Nat}

theorem Fits.mono (h : Fits before starts frame) (hgrows : before.GrowsTo after)
    (hstarts : starts <+: starts') : Fits after starts' frame := by
  unfold Fits at h ⊢
  split at h
  · trivial
  · exact SharedCache.getElem?_of_prefix hgrows.slots_prefix h
  · exact SharedCache.getElem?_of_prefix hstarts h

theorem get?_of_growsTo (hbefore : before.Coherent starts) (hafter : after.Coherent starts')
    (hgrows : before.GrowsTo after) {key : String} {outcome : DetectionOutcome}
    (h : before.get? key = some (number, outcome)) : after.get? key = some (number, outcome) :=
  hafter.get?_eq_some_iff.mpr
    (hgrows.stored _ _ (hbefore.get?_eq_some_iff.mp h) (Option.some_ne_none _))

theorem IsAnswer.mono (h : IsAnswer before starts lookup number) (hbefore : before.Coherent starts)
    (hafter : after.Coherent starts') (hgrows : before.GrowsTo after)
    (hstarts : starts <+: starts') : IsAnswer after starts' lookup number := by
  obtain ⟨starter, hstarter, hkey, hget⟩ := h
  exact ⟨starter, SharedCache.getElem?_of_prefix hstarts hstarter, hkey,
    get?_of_growsTo hbefore hafter hgrows hget⟩

theorem WorksOn.mono (h : WorksOn before starts history lookup worker)
    (hgrows : before.GrowsTo after) (hstarts : starts <+: starts') :
    WorksOn after starts' (history ++ events) lookup worker := by
  cases worker with
  | busy frames => exact ⟨h.1, fun frame hframe => (h.2 frame hframe).mono hgrows hstarts⟩
  | returned number => exact List.mem_append_left _ h

/-- A worker whose innermost look-up has been answered goes on with the one around it, or it
returns with the answer if that look-up was its own. -/
theorem worksOn_resume (hfits : ∀ other ∈ rest, Fits shared starts other)
    (hanswered : .answered frame.lookup number ∈ history)
    (hlast : (frame :: rest).getLast?.map Frame.lookup = some lookup) :
    WorksOn shared starts history lookup (resume number rest) := by
  cases rest with
  | nil =>
    have heq : frame.lookup = lookup := Option.some.inj hlast
    exact heq ▸ hanswered
  | cons next rest =>
    rw [List.getLast?_cons_cons] at hlast
    exact ⟨hlast, hfits⟩

/-- Replacing the innermost look-up of a worker by one that belongs to the same call. -/
theorem worksOn_busy (inner : List Frame)
    (hlast : (frame :: rest).getLast?.map Frame.lookup = some lookup)
    (hkept : inner.getLast?.map Frame.lookup = some frame.lookup)
    (hinner : ∀ other ∈ inner, Fits shared starts other)
    (hfits : ∀ other ∈ rest, Fits shared starts other) :
    WorksOn shared starts history lookup (.busy (inner ++ rest)) := by
  refine ⟨?_, ?_⟩
  · cases rest with
    | nil =>
      rw [List.append_nil, hkept]
      exact hlast
    | cons next rest =>
      rw [List.getLast?_append_of_ne_nil inner (List.cons_ne_nil next rest)]
      rwa [List.getLast?_cons_cons] at hlast
  · intro other hother
    rcases List.mem_append.mp hother with hother | hother
    · exact hinner other hother
    · exact hfits other hother

/-- A worker at a slot that is filled has its answer there. -/
theorem isAnswer_of_content (hcoherent : shared.Coherent starts)
    (hslot : shared.slots[address]? = some lookup.key) {outcome : DetectionOutcome}
    (hcontent : shared.content address = .filled number outcome) :
    IsAnswer shared starts lookup number := by
  have hget : shared.get? lookup.key = some (number, outcome) := by
    unfold SharedCache.get?
    rw [SharedCache.slot_eq_content hcoherent.slots_nodup hslot, hcontent]
  have hstarted := hcoherent.get?_eq_some_iff.mp hget
  obtain ⟨hlt, _⟩ := List.getElem?_eq_some_iff.mp hstarted
  have hstarter := List.getElem?_eq_getElem (hcoherent.started_length ▸ hlt)
  have hisOf := hcoherent.isOf number _ _ hstarted hstarter
  exact ⟨_, hstarter, hisOf.key_eq.symm, hisOf.outcome_eq outcome rfl ▸ hget⟩

theorem isAnswer_of_store (hcoherent : shared.Coherent starts)
    (hstarter : starts[number]? = some lookup) :
    IsAnswer (shared.store number lookup.outcome) starts lookup number := by
  obtain ⟨hlt, _⟩ := List.getElem?_eq_some_iff.mp hstarter
  have hstarted := List.getElem?_eq_getElem (hcoherent.started_length.symm ▸ hlt)
  refine ⟨lookup, hstarter, rfl, ?_⟩
  refine (hcoherent.store hstarter).get?_eq_some_iff.mpr
    (DetectionCache.getElem?_store.mpr ⟨_, hstarted, ?_⟩)
  rw [if_pos rfl, (hcoherent.isOf number _ _ hstarted hstarter).key_eq]

theorem begun_of_vacant (h : shared.content address = .vacant) : shared.begun address = none := by
  unfold SharedCache.content at h
  split at h
  · assumption
  · split at h <;> cases h

/-- A step that starts no computation. -/
theorem Moves.quiet {key : String} (hquiet : events.filterMap WorkEvent.started? = [])
    (hcoherent : after.Coherent starts) (hgrows : before.GrowsTo after)
    (hsame : ∀ other, key ≠ other → before.SameAt other after)
    (hanswered : ∀ lookup number, .answered lookup number ∈ events →
      IsAnswer after starts lookup number)
    (hworks : ∀ lookup, frames.getLast?.map Frame.lookup = some lookup →
      WorksOn after starts (history ++ events) lookup worker) :
    Moves before starts history frames key after worker events := by
  have hstarts : starts ++ events.filterMap WorkEvent.started? = starts := by
    rw [hquiet, List.append_nil]
  refine ⟨?_, hgrows, hsame, ?_, ?_⟩ <;> rw [hstarts]
  · exact hcoherent
  · exact hanswered
  · exact hworks

section Stages

variable {current : Lookup} (hcoherent : before.Coherent starts)
  (hrest : ∀ other ∈ rest, Fits before starts other)

theorem sameAt_self (before : SharedCache) :
    ∀ other, current.key ≠ other → before.SameAt other before :=
  fun _ _ _ _ _ => Iff.rfl

include hcoherent hrest

/-- A worker that seeks finds the slot of its key, or makes one. -/
theorem moves_of_seeking :
    let opened := before.openSlot current.key
    Moves before starts history (⟨current, .seeking⟩ :: rest) current.key opened
      (.busy (⟨current, .atSlot (opened.slots.idxOf current.key)⟩ :: rest)) [] := by
  intro opened
  have hgrows : before.GrowsTo opened := SharedCache.growsTo_openSlot before current.key
  refine Moves.quiet rfl (hcoherent.openSlot current.key) hgrows (fun _ _ _ _ _ => Iff.rfl)
    (fun _ _ h => absurd h List.not_mem_nil) fun lookup hlast => ?_
  refine worksOn_busy [_] hlast rfl ?_ fun other hother =>
    (hrest other hother).mono hgrows (List.prefix_refl starts)
  intro other hother
  rw [List.mem_singleton.mp hother]
  exact List.getElem?_idxOf (SharedCache.mem_slots_openSlot before current.key)

/-- A worker at a slot with an outcome takes this for its answer. -/
theorem moves_of_filled {outcome : DetectionOutcome}
    (hslot : before.slots[address]? = some current.key)
    (hcontent : before.content address = .filled number outcome) :
    Moves before starts history (⟨current, .atSlot address⟩ :: rest) current.key before
      (resume number rest) [.answered current number] := by
  have hanswer := isAnswer_of_content hcoherent hslot hcontent
  refine Moves.quiet rfl hcoherent (.refl before) (sameAt_self before) ?_ fun lookup hlast => ?_
  · intro lookup answer hmem
    cases List.mem_singleton.mp hmem
    exact hanswer
  · exact worksOn_resume hrest (List.mem_append_right _ List.mem_cons_self) hlast

/-- A worker at a slot without a computation starts its own. -/
theorem moves_of_vacant (hslot : before.slots[address]? = some current.key)
    (hcontent : before.content address = .vacant) :
    Moves before starts history (⟨current, .atSlot address⟩ :: rest) current.key
      (before.start address current.key)
      (.busy (⟨current, .computing before.cache.computations current.nested⟩ :: rest))
      [.started current] := by
  have hgrows := SharedCache.growsTo_start before address current.key
  refine ⟨hcoherent.start hslot (begun_of_vacant hcontent), hgrows,
    fun other hne => SharedCache.sameAt_start hne, ?_, fun lookup hlast => ?_⟩
  · intro lookup answer hmem
    cases List.mem_singleton.mp hmem
  · refine worksOn_busy [_] hlast rfl ?_ fun other hother =>
      (hrest other hother).mono hgrows (List.prefix_append starts [current])
    intro other hother
    rw [List.mem_singleton.mp hother]
    change (starts ++ [current])[before.cache.computations]? = some current
    rw [hcoherent.length_eq]
    exact List.getElem?_concat_length

/-- A worker whose computation has nothing more to look up stores its outcome. -/
theorem moves_of_stored (hstarter : starts[number]? = some current) :
    Moves before starts history (⟨current, .computing number []⟩ :: rest) current.key
      (before.store number current.outcome) (resume number rest) [.answered current number] := by
  have hgrows := hcoherent.growsTo_store hstarter
  refine Moves.quiet rfl (hcoherent.store hstarter) hgrows ?_ ?_ fun lookup hlast => ?_
  · intro other hne
    refine SharedCache.sameAt_store ?_ current.outcome
    intro computation hstarted
    rw [(hcoherent.isOf number computation current hstarted hstarter).key_eq]
    exact hne
  · intro lookup answer hmem
    cases List.mem_singleton.mp hmem
    exact isAnswer_of_store hcoherent hstarter
  · refine worksOn_resume ?_ (List.mem_append_right _ List.mem_cons_self) hlast
    exact fun other hother => (hrest other hother).mono hgrows (List.prefix_refl starts)

/-- A worker whose computation looks something up first turns to that. -/
theorem moves_of_nested {next : Lookup} {remaining : List Lookup}
    (hstarter : starts[number]? = some current) :
    Moves before starts history (⟨current, .computing number (next :: remaining)⟩ :: rest)
      current.key before
      (.busy (⟨next, .seeking⟩ :: ⟨current, .computing number remaining⟩ :: rest)) [] := by
  refine Moves.quiet rfl hcoherent (.refl before) (sameAt_self before)
    (fun _ _ h => absurd h List.not_mem_nil) fun lookup hlast => ?_
  refine worksOn_busy [_, _] hlast rfl ?_ hrest
  intro other hother
  rcases List.mem_cons.mp hother with rfl | hother
  · trivial
  · rw [List.mem_singleton.mp hother]
    exact hstarter

end Stages

/-- What one step of a worker does. -/
theorem moves_of_advance (hcoherent : before.Coherent starts)
    (hfits : ∀ other ∈ frame :: rest, Fits before starts other)
    (hstep : advance before (frame :: rest) = some (after, worker, events)) :
    Moves before starts history (frame :: rest) frame.lookup.key after worker events := by
  obtain ⟨current, stage⟩ := frame
  obtain ⟨hcurrent, hrest⟩ := List.forall_mem_cons.mp hfits
  cases stage with
  | seeking =>
    cases hstep
    exact moves_of_seeking hcoherent hrest
  | atSlot address =>
    simp only [advance] at hstep
    split at hstep
    · next hcontent =>
      cases hstep
      exact moves_of_filled hcoherent hrest hcurrent hcontent
    · cases hstep
    · next hcontent =>
      cases hstep
      exact moves_of_vacant hcoherent hrest hcurrent hcontent
  | computing number remaining =>
    cases remaining with
    | nil =>
      cases hstep
      exact moves_of_stored hcoherent hrest hcurrent
    | cons next remaining =>
      cases hstep
      exact moves_of_nested hcoherent hrest hcurrent

variable {workshop next : Workshop} {index : Nat}

theorem step_eq_some (h : workshop.step index = some next) :
    ∃ frame rest after worker events, workshop.workers[index]? = some (.busy (frame :: rest)) ∧
      advance workshop.shared (frame :: rest) = some (after, worker, events) ∧
      next = ⟨after, workshop.workers.set index worker, workshop.history ++ events⟩ := by
  unfold step at h
  split at h
  · next frames hworker =>
    obtain ⟨⟨after, worker, events⟩, hadvance, rfl⟩ := Option.map_eq_some_iff.mp h
    cases frames with
    | nil => cases hadvance
    | cons frame rest => exact ⟨frame, rest, after, worker, events, hworker, hadvance, rfl⟩
  · cases h

theorem invariant_fresh (lookups : List Lookup) : Invariant lookups (fresh lookups) where
  coherent := SharedCache.coherent_fresh
  answered lookup number h := absurd h List.not_mem_nil
  length_eq := List.length_map Worker.of
  worksOn index lookup worker hlookup hworker := by
    have hof : (fresh lookups).workers[index]? = some (Worker.of lookup) := by
      simp only [fresh, List.getElem?_map, hlookup, Option.map_some]
    rw [hof] at hworker
    cases hworker
    refine ⟨rfl, ?_⟩
    intro frame hframe
    rw [List.mem_singleton.mp hframe]
    trivial

theorem Invariant.exists_lookup (hinv : Invariant lookups workshop)
    (hworker : workshop.workers[index]? = some worker) :
    ∃ lookup, lookups[index]? = some lookup ∧
      WorksOn workshop.shared workshop.starts workshop.history lookup worker := by
  obtain ⟨hlt, _⟩ := List.getElem?_eq_some_iff.mp hworker
  have hlookup := List.getElem?_eq_getElem (Nat.lt_of_lt_of_eq hlt hinv.length_eq)
  exact ⟨_, hlookup, hinv.worksOn index _ worker hlookup hworker⟩

/-- A step of a worker is a move on the key of its innermost look-up. -/
theorem Invariant.moves (hinv : Invariant lookups workshop)
    (hworker : workshop.workers[index]? = some (.busy (frame :: rest)))
    (hadvance : advance workshop.shared (frame :: rest) = some (after, worker, events)) :
    Moves workshop.shared workshop.starts workshop.history (frame :: rest) frame.lookup.key after
      worker events := by
  obtain ⟨lookup, _, _, hfits⟩ := hinv.exists_lookup hworker
  exact moves_of_advance hinv.coherent hfits hadvance

theorem Invariant.of_moves (hinv : Invariant lookups workshop)
    (hworker : workshop.workers[index]? = some (.busy (frame :: rest)))
    (hmoves : Moves workshop.shared workshop.starts workshop.history (frame :: rest)
      frame.lookup.key after worker events) :
    Invariant lookups ⟨after, workshop.workers.set index worker, workshop.history ++ events⟩ := by
  have hstarts : (⟨after, workshop.workers.set index worker, workshop.history ++ events⟩ :
      Workshop).starts = workshop.starts ++ events.filterMap WorkEvent.started? :=
    List.filterMap_append
  have hprefix := List.prefix_append workshop.starts (events.filterMap WorkEvent.started?)
  refine ⟨?_, ?_, ?_, ?_⟩
  · rw [hstarts]
    exact hmoves.coherent
  · intro lookup number hmem
    rw [hstarts]
    rcases List.mem_append.mp hmem with hmem | hmem
    · exact (hinv.answered lookup number hmem).mono hinv.coherent hmoves.coherent hmoves.growsTo
        hprefix
    · exact hmoves.answered lookup number hmem
  · rw [List.length_set]
    exact hinv.length_eq
  · intro other lookup otherWorker hlookup hother
    rw [hstarts]
    by_cases heq : index = other
    · subst heq
      obtain ⟨hlt, _⟩ := List.getElem?_eq_some_iff.mp hworker
      rw [List.getElem?_set_self hlt] at hother
      cases hother
      exact hmoves.worksOn lookup (hinv.worksOn index lookup _ hlookup hworker).1
    · rw [List.getElem?_set_ne heq] at hother
      exact (hinv.worksOn other lookup otherWorker hlookup hother).mono hmoves.growsTo hprefix

theorem invariant_step (hinv : Invariant lookups workshop)
    (hstep : workshop.step index = some next) :
    Invariant lookups next ∧ workshop.shared.GrowsTo next.shared := by
  obtain ⟨frame, rest, after, worker, events, hworker, hadvance, rfl⟩ := step_eq_some hstep
  have hmoves := hinv.moves hworker hadvance
  exact ⟨hinv.of_moves hworker hmoves, hmoves.growsTo⟩

theorem run_cons (workshop : Workshop) (index : Nat) (rest : List Nat) :
    workshop.run (index :: rest) = ((workshop.step index).getD workshop).run rest := rfl

/-- What is stored under a key stays for the rest of the run. -/
theorem invariant_run (schedule : List Nat) (hinv : Invariant lookups workshop) :
    Invariant lookups (workshop.run schedule) ∧
      ∀ key found, workshop.shared.get? key = some found →
        (workshop.run schedule).shared.get? key = some found := by
  induction schedule generalizing workshop with
  | nil => exact ⟨hinv, fun _ _ h => h⟩
  | cons index rest ih =>
    rw [run_cons]
    cases hstep : workshop.step index with
    | none => exact ih hinv
    | some next =>
      obtain ⟨hnext, hgrows⟩ := invariant_step hinv hstep
      obtain ⟨hrun, hkept⟩ := ih hnext
      refine ⟨hrun, ?_⟩
      intro key found hget
      exact hkept key found (get?_of_growsTo hinv.coherent hnext.coherent hgrows hget)

/-- A step on one key leaves the slots of the others as they are. -/
theorem slot_of_step_ne (hinv : Invariant lookups workshop)
    (hworker : workshop.workers[index]? = some (.busy (frame :: rest)))
    (hstep : workshop.step index = some next) {key : String} (hkey : frame.lookup.key ≠ key) :
    next.shared.slot key = workshop.shared.slot key := by
  obtain ⟨frame', rest', after, worker, events, hworker', hadvance, rfl⟩ := step_eq_some hstep
  rw [hworker] at hworker'
  cases hworker'
  have hmoves := hinv.moves hworker hadvance
  exact hinv.coherent.slot_eq_of_sameAt hmoves.coherent (hmoves.sameAt key hkey)

/-- A worker waits only at a slot whose computation is going on. -/
theorem step_eq_none_iff (hinv : Invariant lookups workshop)
    (hworker : workshop.workers[index]? = some (.busy (frame :: rest))) :
    workshop.step index = none ↔
      (∃ address, frame.stage = .atSlot address) ∧
        ∃ number, workshop.shared.slot frame.lookup.key = .inProgress number := by
  obtain ⟨lookup, _, _, hfits⟩ := hinv.exists_lookup hworker
  have hfit := hfits frame List.mem_cons_self
  have hnone : workshop.step index = none ↔ advance workshop.shared (frame :: rest) = none := by
    simp only [step, hworker, Option.map_eq_none_iff]
  rw [hnone]
  obtain ⟨current, stage⟩ := frame
  cases stage with
  | seeking => simp [advance]
  | atSlot address =>
    rw [SharedCache.slot_eq_content hinv.coherent.slots_nodup hfit]
    cases hcontent : workshop.shared.content address <;> simp [advance, hcontent]
  | computing number remaining => cases remaining <;> simp [advance]

/-- What a run of workers on `lookups` has come to: no key has had two computations started, the
computations are counted by key, and every look-up that has been answered, nested or not, has been
given the one outcome that the computation of its key has stored, failure or not. -/
structure OncePerKey (lookups : List Lookup) (workshop : Workshop) : Prop where
  started_once : (workshop.starts.map Lookup.key).Nodup
  computations_eq :
    workshop.cache.computations = (workshop.starts.map Lookup.key).toFinset.card
  answered : ∀ lookup number, .answered lookup number ∈ workshop.history →
    IsAnswer workshop.shared workshop.starts lookup number
  returned : ∀ (index : Nat) lookup number, lookups[index]? = some lookup →
    workshop.workers[index]? = some (.returned number) → .answered lookup number ∈ workshop.history

theorem Invariant.oncePerKey (hinv : Invariant lookups workshop) : OncePerKey lookups workshop where
  started_once := hinv.coherent.nodup_keys
  computations_eq := by
    rw [List.toFinset_card_of_nodup hinv.coherent.nodup_keys, List.length_map]
    exact hinv.coherent.length_eq
  answered := hinv.answered
  returned index lookup number hlookup hworker := hinv.worksOn index lookup _ hlookup hworker

/-- Any number of workers may look up any keys of a new cache in any order of steps. At every
moment each key has been computed at most once and all its look-ups have been given the outcome of
that computation. What is stored is never replaced or removed, a step on one key does not show on
another, and a worker waits only while the key it looks up is being computed. -/
theorem computed_once (lookups : List Lookup) (schedule : List Nat) :
    let workshop := (fresh lookups).run schedule
    OncePerKey lookups workshop ∧
      (∀ key found, workshop.shared.get? key = some found →
        ∀ later, (workshop.run later).shared.get? key = some found) ∧
      ∀ (index : Nat) frame rest, workshop.workers[index]? = some (.busy (frame :: rest)) →
        (∀ next, workshop.step index = some next → ∀ key, frame.lookup.key ≠ key →
          next.shared.slot key = workshop.shared.slot key) ∧
        (workshop.step index = none ↔
          (∃ address, frame.stage = .atSlot address) ∧
            ∃ number, workshop.shared.slot frame.lookup.key = .inProgress number) := by
  intro workshop
  obtain ⟨hinv, _⟩ : Invariant lookups workshop ∧ _ :=
    invariant_run schedule (invariant_fresh lookups)
  refine ⟨hinv.oncePerKey, ?_, ?_⟩
  · intro key found hget later
    exact (invariant_run later hinv).2 key found hget
  · intro index frame rest hworker
    exact ⟨fun next hstep key hkey => slot_of_step_ne hinv hworker hstep hkey,
      step_eq_none_iff hinv hworker⟩

/-- Two workers on a key whose computation fails and looks up another key, which a third worker
has started: the first waits for the third, the second for the first. -/
example :
    let failure : DetectionOutcome := .failed (.source "scripted" "no repository")
    let inner : Lookup := .mk "b" (.changes ChangeSet.empty) []
    let outer : Lookup := .mk "a" failure [inner]
    let workshop := (fresh [outer, outer, inner]).run [0, 1, 2, 2, 0, 1, 0, 0, 0, 1, 2, 0, 1, 0, 1]
    workshop.answers = [1, 1, 0] ∧ workshop.cache.computations = 2 ∧
      workshop.shared.get? "a" = some (1, failure) := by
  decide

end Workshop

end TestSelection
