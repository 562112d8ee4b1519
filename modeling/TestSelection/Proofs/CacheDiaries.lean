import Mathlib.Data.List.Nodup
import TestSelection.Detection.Nested
import TestSelection.Proofs.CacheSlots

/-!
What a diary tells about its cache. Every entry is one step, so that what the cache knows about a
key can be read from the entries so far. A step on one key keeps this for that key, and does not
show on another; a diary has come about by steps, so each entry is bound by the entries before it.
-/

namespace TestSelection

namespace CacheEvent

/-- The key that a call asks for. -/
def asked? : CacheEvent → Option String
  | kept key _ _ | started key _ | waiting key => some key
  | finished _ _ _ | looked _ _ | counted _ => none

def startedKey? : CacheEvent → Option String
  | started key _ => some key
  | _ => none

end CacheEvent

/-- The keys whose computations have been started, in that order. -/
def startedKeys (history : List CacheEvent) : List String :=
  history.filterMap CacheEvent.startedKey?

theorem mem_startedKeys {history : List CacheEvent} {key : String} :
    key ∈ startedKeys history ↔ ∃ number, .started key number ∈ history := by
  constructor
  · intro hmem
    obtain ⟨event, hevent, hkey⟩ := List.mem_filterMap.mp hmem
    cases event <;> cases hkey
    exact ⟨_, hevent⟩
  · rintro ⟨number, hmem⟩
    exact List.mem_filterMap.mpr ⟨_, hmem, rfl⟩

theorem startedKeys_concat (history : List CacheEvent) (event : CacheEvent) :
    startedKeys (history ++ [event]) = startedKeys history ++ event.startedKey?.toList := by
  cases event <;> simp [startedKeys, CacheEvent.startedKey?]

namespace Diary

/-- One thing done with a cache, and the entry that tells of it. -/
inductive Step : Diary → CacheEvent → Diary → Prop
  | keep {diary key number outcome} (h : diary.cache.slot key = .filled number outcome) :
    Step diary (.kept key number outcome) (diary.note (.kept key number outcome))
  | wait {diary key number} (h : diary.cache.slot key = .inProgress number) :
    Step diary (.waiting key) (diary.note (.waiting key))
  | start {diary key} (h : diary.cache.slot key = .vacant) :
    Step diary (.started key diary.cache.computations) (diary.start key)
  | finish {diary key number outcome} (h : diary.cache.slot key = .inProgress number) :
    Step diary (.finished key number outcome) (diary.finish key number outcome)
  | look {diary key} :
    Step diary (.looked key (diary.cache.get? key))
      (diary.note (.looked key (diary.cache.get? key)))
  | count {diary} :
    Step diary (.counted diary.cache.computations)
      (diary.note (.counted diary.cache.computations))

inductive Leads (diary : Diary) : Diary → Prop
  | refl : Leads diary diary
  | step {moment event next} (h : Leads diary moment) (hstep : Step moment event next) :
    Leads diary next

/-- What a diary tells about a key. -/
structure TellsOf (diary : Diary) (key : String) : Prop where
  vacant_iff : diary.cache.slot key = .vacant ↔ ∀ number, .started key number ∉ diary.history
  inProgress_iff : ∀ number, diary.cache.slot key = .inProgress number ↔
    .started key number ∈ diary.history ∧ ∀ stored outcome,
      .finished key stored outcome ∉ diary.history
  filled_iff : ∀ number outcome, diary.cache.slot key = .filled number outcome ↔
    .finished key number outcome ∈ diary.history
  started_of_finished : ∀ number outcome, .finished key number outcome ∈ diary.history →
    .started key number ∈ diary.history
  started_unique : ∀ number other, .started key number ∈ diary.history →
    .started key other ∈ diary.history → number = other

/-- What a diary tells about its cache. -/
structure Tells (diary : Diary) : Prop where
  tellsOf : ∀ key, TellsOf diary key
  computations_eq : diary.cache.computations = (startedKeys diary.history).length
  nodup : (startedKeys diary.history).Nodup

variable {diary moment next after : Diary} {event : CacheEvent} {before : List CacheEvent}
variable {key other : String} {number : Nat} {outcome : DetectionOutcome} {plan : Plan}

theorem Step.history_eq (h : Step moment event next) :
    next.history = moment.history ++ [event] := by
  cases h <;> rfl

theorem Leads.trans (h : Leads diary moment) (hnext : Leads moment next) : Leads diary next := by
  induction hnext with
  | refl => exact h
  | step _ hstep ih => exact ih.step hstep

theorem Leads.isPrefix (h : Leads diary moment) : diary.history <+: moment.history := by
  induction h with
  | refl => exact List.prefix_rfl
  | step _ hstep ih =>
    rw [hstep.history_eq]
    exact ih.trans (List.prefix_append _ _)

theorem tells_fresh : Tells {} where
  tellsOf key := by
    refine ⟨?_, ?_, ?_, ?_, ?_⟩ <;> simp [DetectionCache.slot]
  computations_eq := rfl
  nodup := List.nodup_nil

/-- What does not show on a key leaves what is told about it. -/
theorem TellsOf.congr (h : TellsOf diary key)
    (hslot : next.cache.slot key = diary.cache.slot key)
    (hstarted : ∀ number, .started key number ∈ next.history ↔ .started key number ∈ diary.history)
    (hfinished : ∀ number outcome, .finished key number outcome ∈ next.history ↔
      .finished key number outcome ∈ diary.history) : TellsOf next key := by
  constructor <;> simp only [hslot, hstarted, hfinished]
  · exact h.vacant_iff
  · exact h.inProgress_iff
  · exact h.filled_iff
  · exact h.started_of_finished
  · exact h.started_unique

theorem TellsOf.start (h : TellsOf diary key) (hvacant : diary.cache.slot key = .vacant) :
    TellsOf (diary.start key) key := by
  have hfresh := h.vacant_iff.mp hvacant
  have hself : (diary.start key).cache.slot key = .inProgress diary.cache.computations :=
    DetectionCache.slot_start_self hvacant
  have hstarted (number) : .started key number ∈ (diary.start key).history ↔
      number = diary.cache.computations := by
    simp [Diary.start, hfresh]
  have hfinished (number outcome) :
      .finished key number outcome ∉ (diary.start key).history := by
    have hnone : .finished key number outcome ∉ diary.history := fun hmem =>
      hfresh number (h.started_of_finished number outcome hmem)
    simp [Diary.start, hnone]
  constructor <;> simp only [hself, hstarted, hfinished]
  · simp
  · simp [eq_comm]
  · simp
  · simp
  · intro number other hnumber hother
    rw [hnumber, hother]

theorem TellsOf.finish (h : TellsOf diary key) (hslot : diary.cache.slot key = .inProgress number) :
    TellsOf (diary.finish key number outcome) key := by
  obtain ⟨hnumber, hnone⟩ := (h.inProgress_iff number).mp hslot
  have hself : (diary.finish key number outcome).cache.slot key = .filled number outcome :=
    DetectionCache.slot_store_self hslot
  have hstarted (stored) : .started key stored ∈ (diary.finish key number outcome).history ↔
      .started key stored ∈ diary.history := by
    simp [Diary.finish]
  have hfinished (stored result) :
      .finished key stored result ∈ (diary.finish key number outcome).history ↔
        stored = number ∧ result = outcome := by
    simp [Diary.finish, hnone]
  constructor <;> simp only [hself, hstarted, hfinished]
  · simp only [reduceCtorEq, false_iff]
    exact fun hfresh => hfresh number hnumber
  · simp only [reduceCtorEq, false_iff]
    exact fun stored hopen => hopen.2 number outcome ⟨rfl, rfl⟩
  · simp [eq_comm]
  · intro stored result hend
    rwa [hend.1]
  · exact h.started_unique

/-- An entry about an answer or a look at the cache says nothing new about it. -/
theorem Tells.note (h : Tells diary) (hstarted : ∀ key number, event ≠ .started key number)
    (hfinished : ∀ key number outcome, event ≠ .finished key number outcome) :
    Tells (diary.note event) := by
  have hkeys : startedKeys (diary.note event).history = startedKeys diary.history := by
    rw [Diary.note, startedKeys_concat]
    cases event <;> simp_all [CacheEvent.startedKey?]
  refine ⟨fun key => ?_, ?_, ?_⟩
  · have hslot : (diary.note event).cache.slot key = diary.cache.slot key := rfl
    apply (h.tellsOf key).congr hslot
    · intro number
      simp [Diary.note, (hstarted key number).symm]
    · intro number outcome
      simp [Diary.note, (hfinished key number outcome).symm]
  · rw [hkeys]
    exact h.computations_eq
  · rw [hkeys]
    exact h.nodup

theorem Tells.vacant_iff (h : Tells diary) :
    diary.cache.slot key = .vacant ↔ key ∉ startedKeys diary.history := by
  rw [(h.tellsOf key).vacant_iff, mem_startedKeys, not_exists]

theorem Tells.start (h : Tells diary) (hvacant : diary.cache.slot key = .vacant) :
    Tells (diary.start key) := by
  have hkeys : startedKeys (diary.start key).history = startedKeys diary.history ++ [key] :=
    startedKeys_concat _ _
  refine ⟨fun other => ?_, ?_, ?_⟩
  · by_cases hkey : key = other
    · subst hkey
      exact (h.tellsOf key).start hvacant
    · apply (h.tellsOf other).congr (DetectionCache.slot_start_of_ne hkey)
      · intro number
        simp [Diary.start, Ne.symm hkey]
      · intro number outcome
        simp [Diary.start]
  · rw [hkeys, List.length_append, ← h.computations_eq]
    exact DetectionCache.computations_start
  · rw [hkeys, ← List.concat_eq_append]
    exact h.nodup.concat (h.vacant_iff.mp hvacant)

theorem Tells.finish (h : Tells diary) (hslot : diary.cache.slot key = .inProgress number) :
    Tells (diary.finish key number outcome) := by
  have hkeys : startedKeys (diary.finish key number outcome).history =
      startedKeys diary.history := by
    rw [Diary.finish, startedKeys_concat]
    exact List.append_nil _
  refine ⟨fun other => ?_, ?_, ?_⟩
  · by_cases hkey : key = other
    · subst hkey
      exact (h.tellsOf key).finish hslot
    · apply (h.tellsOf other).congr (DetectionCache.slot_store_of_ne hslot hkey)
      · intro stored
        simp [Diary.finish]
      · intro stored result
        simp [Diary.finish, Ne.symm hkey]
  · rw [hkeys, ← h.computations_eq]
    exact DetectionCache.computations_store
  · rw [hkeys]
    exact h.nodup

theorem Tells.step (h : Tells moment) (hstep : Step moment event next) : Tells next := by
  cases hstep with
  | keep | wait | look | count => exact h.note (fun _ _ => nofun) (fun _ _ _ => nofun)
  | start hvacant => exact h.start hvacant
  | finish hslot => exact h.finish hslot

theorem Leads.tells (h : Leads {} diary) : Tells diary := by
  induction h with
  | refl => exact tells_fresh
  | step _ hstep ih => exact ih.step hstep

/-- Every entry was made by a step at the moment before it. -/
theorem Leads.exists_step (h : Leads {} diary) (hbegins : before ++ [event] <+: diary.history) :
    ∃ moment next, Leads {} moment ∧ moment.history = before ∧ Step moment event next := by
  induction h with
  | refl => simp at hbegins
  | @step moment last next h hstep ih =>
    rw [hstep.history_eq] at hbegins
    rcases List.prefix_concat_iff.mp hbegins with heq | hbegins
    · obtain ⟨rfl, hlast⟩ := List.append_inj' heq rfl
      cases hlast
      exact ⟨moment, next, h, rfl, hstep⟩
    · exact ih hbegins

/-- What can be said of an entry by the entries before it. -/
def Lawful (before : List CacheEvent) : CacheEvent → Prop
  | .kept key number outcome => .finished key number outcome ∈ before
  | .started key number => key ∉ startedKeys before ∧ number = (startedKeys before).length
  | .waiting key => ∃ number, .started key number ∈ before ∧
      ∀ stored outcome, .finished key stored outcome ∉ before
  | .finished key number _ => .started key number ∈ before ∧
      ∀ stored outcome, .finished key stored outcome ∉ before
  | .looked key found => ∀ number outcome,
      found = some (number, outcome) ↔ .finished key number outcome ∈ before
  | .counted count => count = (startedKeys before).length

theorem Tells.get?_eq_some_iff (h : Tells diary) : diary.cache.get? key = some (number, outcome) ↔
    .finished key number outcome ∈ diary.history := by
  rw [DetectionCache.get?_eq_some_iff, (h.tellsOf key).filled_iff]

theorem Tells.lawful (h : Tells moment) (hstep : Step moment event next) :
    Lawful moment.history event := by
  cases hstep with
  | keep hslot => exact ((h.tellsOf _).filled_iff _ _).mp hslot
  | wait hslot => exact ⟨_, ((h.tellsOf _).inProgress_iff _).mp hslot⟩
  | start hslot => exact ⟨h.vacant_iff.mp hslot, h.computations_eq⟩
  | finish hslot => exact ((h.tellsOf _).inProgress_iff _).mp hslot
  | look => exact fun number outcome => h.get?_eq_some_iff
  | count => exact h.computations_eq

theorem Leads.lawful (h : Leads {} diary) (hbegins : before ++ [event] <+: diary.history) :
    Lawful before event := by
  obtain ⟨moment, next, hmoment, rfl, hstep⟩ := h.exists_step hbegins
  exact hmoment.tells.lawful hstep

theorem Leads.exists_lawful (h : Leads {} diary) (hmem : event ∈ diary.history) :
    ∃ before, before ++ [event] <+: diary.history ∧ Lawful before event := by
  obtain ⟨before, rest, heq⟩ := List.append_of_mem hmem
  have hbegins : before ++ [event] <+: diary.history := ⟨rest, by simp [heq]⟩
  exact ⟨before, hbegins, h.lawful hbegins⟩

/-- The outcome of a key is the outcome of one computation. -/
theorem TellsOf.finished_unique (h : TellsOf diary key) {stored : Nat} {result : DetectionOutcome}
    (hleft : .finished key number outcome ∈ diary.history)
    (hright : .finished key stored result ∈ diary.history) :
    number = stored ∧ outcome = result := by
  have hslot := (h.filled_iff _ _).mpr hleft
  rw [(h.filled_iff _ _).mpr hright] at hslot
  cases hslot
  exact ⟨rfl, rfl⟩

end Diary

end TestSelection
