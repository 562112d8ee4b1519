import Mathlib
import TestSelection.Proofs.CacheDiaries

/-!
Computing once, when computations use the cache themselves. A call leaves the keys in progress
around it in progress, and none of its own; so a computation that has been started finds its slot as
it left it when it comes to store its outcome. This is an induction on the plan, for every cache
that it may be carried out on.
-/

namespace TestSelection

namespace Diary

variable {diary moment next after : Diary} {event : CacheEvent} {before : List CacheEvent}
variable {key : String} {number : Nat} {outcome : DetectionOutcome} {plan : Plan}

/-- No call asks for the key of a call around it: what has been started under the key has ended. -/
def Apart (history : List CacheEvent) : Prop :=
  ∀ before event key, before ++ [event] <+: history → event.asked? = some key →
    key ∈ startedKeys before → ∃ number outcome, .finished key number outcome ∈ before

theorem Apart.of_isPrefix {history : List CacheEvent} (h : Apart history)
    (hbegins : before <+: history) : Apart before :=
  fun earlier event key hearlier => h earlier event key (hearlier.trans hbegins)

/-- Calls are apart exactly if none of them waits for itself. -/
theorem Leads.apart_iff (h : Leads {} diary) :
    Apart diary.history ↔ ∀ key, .waiting key ∉ diary.history := by
  constructor
  · intro hapart key hmem
    obtain ⟨before, hbegins, number, hstarted, hnone⟩ := h.exists_lawful hmem
    obtain ⟨stored, outcome, hfinished⟩ :=
      hapart before _ key hbegins rfl (mem_startedKeys.mpr ⟨number, hstarted⟩)
    exact hnone stored outcome hfinished
  · intro hnone before event key hbegins hasked hmem
    have hlawful := h.lawful hbegins
    cases event with
    | kept =>
      cases hasked
      exact ⟨_, _, hlawful⟩
    | started =>
      cases hasked
      exact absurd hmem hlawful.1
    | waiting asked =>
      have hwaits := hbegins.subset (List.mem_append_right _ List.mem_cons_self)
      exact absurd hwaits (hnone asked)
    | finished | looked | counted => cases hasked

/-- What a call, or a computation, does to the cache it is made on: it leaves the keys that are in
progress as they are, and it leaves no other key in progress unless it waits for itself. -/
structure CarriesOn {α : Type} (diary : Diary) (result : Diary × Option α) : Prop where
  leads : Leads diary result.1
  pending : ∀ key number, diary.cache.slot key = .inProgress number →
    result.1.cache.slot key = .inProgress number
  settled : result.2.isSome → ∀ key number, result.1.cache.slot key = .inProgress number →
    diary.cache.slot key = .inProgress number
  waits : result.2 = none → ∃ key, .waiting key ∈ result.1.history

section CarriesOn

variable {α β : Type} {answer : α} {result : Diary × Option β}
variable {compute : Diary → Diary × Option DetectionOutcome}

theorem CarriesOn.done : CarriesOn diary (diary, some answer) where
  leads := .refl
  pending _ _ h := h
  settled _ _ _ h := h
  waits h := nomatch h

/-- A step that leaves the slots as they are, and then the rest. -/
theorem CarriesOn.after_note (h : CarriesOn (diary.note event) result)
    (hstep : Step diary event (diary.note event)) : CarriesOn diary result where
  leads := (Leads.refl.step hstep).trans h.leads
  pending := h.pending
  settled := h.settled
  waits := h.waits

theorem CarriesOn.then (h : CarriesOn diary (after, some answer)) (hrest : CarriesOn after result) :
    CarriesOn diary result where
  leads := h.leads.trans hrest.leads
  pending key number hslot := hrest.pending key number (h.pending key number hslot)
  settled hsome key number hslot := h.settled rfl key number (hrest.settled hsome key number hslot)
  waits := hrest.waits

theorem CarriesOn.stuck (h : CarriesOn diary (after, (none : Option α))) :
    CarriesOn diary (after, (none : Option β)) where
  leads := h.leads
  pending := h.pending
  settled hsome := nomatch hsome
  waits _ := h.waits rfl

theorem carriesOn_call (hcompute : ∀ diary, CarriesOn diary (compute diary)) (diary : Diary)
    (key : String) : CarriesOn diary (call key compute diary) := by
  unfold call
  split
  case h_1 number outcome hslot => exact CarriesOn.done.after_note (.keep hslot)
  case h_2 number hslot =>
    refine ⟨Leads.refl.step (.wait hslot), fun _ _ h => h, fun h => (nomatch h), fun _ => ⟨key, ?_⟩⟩
    exact List.mem_append_right _ List.mem_cons_self
  case h_3 hvacant =>
    have hstart : Leads diary (diary.start key) := Leads.refl.step (.start hvacant)
    have hself : (diary.start key).cache.slot key = .inProgress diary.cache.computations :=
      DetectionCache.slot_start_self hvacant
    have hother (other) (hne : key ≠ other) :
        (diary.start key).cache.slot other = diary.cache.slot other :=
      DetectionCache.slot_start_of_ne hne
    have hkey (other number) (hslot : diary.cache.slot other = .inProgress number) :
        key ≠ other := by
      intro heq
      rw [← heq, hvacant] at hslot
      cases hslot
    have hbody := hcompute (diary.start key)
    split
    case h_1 after hresult =>
      rw [hresult] at hbody
      refine ⟨hstart.trans hbody.leads, ?_, fun h => (nomatch h), fun _ => hbody.waits rfl⟩
      intro other number hslot
      apply hbody.pending
      rwa [hother other (hkey other number hslot)]
    case h_2 after outcome hresult =>
      rw [hresult] at hbody
      have hpending := hbody.pending key _ hself
      have hfinish : Step after _ (after.finish key diary.cache.computations outcome) :=
        .finish hpending
      have hstored : (after.finish key diary.cache.computations outcome).cache.slot key =
          .filled diary.cache.computations outcome := DetectionCache.slot_store_self hpending
      have hkept (other) (hne : key ≠ other) :
          (after.finish key diary.cache.computations outcome).cache.slot other =
            after.cache.slot other :=
        DetectionCache.slot_store_of_ne hpending hne
      refine ⟨(hstart.trans hbody.leads).step hfinish, ?_, ?_, fun h => nomatch h⟩
      · intro other number hslot
        have hne := hkey other number hslot
        rw [hkept other hne]
        apply hbody.pending
        rwa [hother other hne]
      · intro _ other number hslot
        by_cases hne : key = other
        · subst hne
          rw [hstored] at hslot
          cases hslot
        · rw [hkept other hne] at hslot
          rw [← hother other hne]
          exact hbody.settled rfl other number hslot

theorem carriesOn_carryOut (plan : Plan) (diary : Diary) :
    CarriesOn diary (carryOut plan diary) := by
  induction plan generalizing diary with
  | produce outcome => exact .done
  | ask key plan next hplan hnext =>
    have hcall := carriesOn_call hplan diary key
    rw [carryOut]
    split
    case h_1 after hresult =>
      rw [hresult] at hcall
      exact hcall.stuck
    case h_2 after answer hresult =>
      rw [hresult] at hcall
      exact hcall.then (hnext answer after)
  | look key next hnext => exact (hnext _ _).after_note .look
  | count next hnext => exact (hnext _ _).after_note .count

end CarriesOn

/-- The answer of a call is what the computation of its key has ended with. -/
theorem finished_of_call (htells : Tells diary)
    (h : call key (carryOut plan) diary = (after, some (number, outcome))) :
    .finished key number outcome ∈ after.history := by
  unfold call at h
  split at h
  case h_1 stored result hslot =>
    cases h
    exact List.mem_append_left _ (((htells.tellsOf key).filled_iff _ _).mp hslot)
  case h_2 => cases h
  case h_3 =>
    split at h <;> cases h
    exact List.mem_append_right _ List.mem_cons_self

theorem carriesOn_callAll (calls : List (String × Plan)) (diary : Diary) :
    CarriesOn diary (callAll calls diary) := by
  induction calls generalizing diary with
  | nil => exact .done
  | cons first rest ih =>
    obtain ⟨key, plan⟩ := first
    have hcall := carriesOn_call (carriesOn_carryOut plan) diary key
    rw [callAll]
    split
    case h_1 after hresult =>
      rw [hresult] at hcall
      exact hcall.stuck
    case h_2 after answer hresult =>
      rw [hresult] at hcall
      have hrest := ih after
      refine hcall.then ⟨hrest.leads, hrest.pending, ?_, ?_⟩
      · simpa using hrest.settled
      · simpa using hrest.waits

/-- Calls one after the other begin as the first of them alone. -/
theorem leads_callAll_append (done rest : List (String × Plan)) (diary : Diary) :
    Leads (callAll done diary).1 (callAll (done ++ rest) diary).1 := by
  induction done generalizing diary with
  | nil => exact (carriesOn_callAll rest diary).leads
  | cons first done ih =>
    obtain ⟨key, plan⟩ := first
    rw [List.cons_append, callAll, callAll]
    cases call key (carryOut plan) diary with
    | mk after answer =>
      cases answer with
      | none => exact .refl
      | some answer => exact ih after

theorem finished_of_callAll {calls : List (String × Plan)} {answers : List (Nat × DetectionOutcome)}
    (h : Leads {} diary) (hanswers : (callAll calls diary).2 = some answers) :
    List.Forall₂ (fun call answer =>
      .finished call.1 answer.1 answer.2 ∈ (callAll calls diary).1.history) calls answers := by
  induction calls generalizing diary answers with
  | nil =>
    cases hanswers
    exact .nil
  | cons first rest ih =>
    obtain ⟨key, plan⟩ := first
    have hcall := carriesOn_call (carriesOn_carryOut plan) diary key
    rw [callAll] at hanswers ⊢
    cases hresult : call key (carryOut plan) diary with
    | mk after answer =>
      cases answer with
      | none => simp [hresult] at hanswers
      | some answer =>
        simp only [hresult, Option.map_eq_some_iff] at hanswers ⊢
        rw [hresult] at hcall
        obtain ⟨answers, hrest, rfl⟩ := hanswers
        have hfinished : .finished key answer.1 answer.2 ∈ after.history :=
          finished_of_call h.tells hresult
        have hbegins := (carriesOn_callAll rest after).leads.isPrefix
        exact .cons (hbegins.subset hfinished) (ih (h.trans hcall.leads) hrest)

/-- Calls that are apart are all answered, and none of their keys is left in progress. -/
theorem answered_of_apart {calls : List (String × Plan)}
    (hapart : Apart (callAll calls {}).1.history) :
    (∃ answers, (callAll calls {}).2 = some answers) ∧
      ∀ key number, (callAll calls {}).1.cache.slot key ≠ .inProgress number := by
  have hcalls := carriesOn_callAll calls {}
  have hsome : (callAll calls {}).2.isSome := by
    by_contra hnone
    obtain ⟨key, hwaits⟩ := hcalls.waits (by simpa using hnone)
    exact hcalls.leads.apart_iff.mp hapart key hwaits
  refine ⟨Option.isSome_iff_exists.mp hsome, ?_⟩
  intro key number hslot
  have hfresh := hcalls.settled hsome key number hslot
  simp [DetectionCache.slot] at hfresh

/-- Where no key is in progress, the keys that hold an outcome are those that were started. -/
theorem Tells.get?_isSome_iff (h : Tells diary)
    (hsettled : ∀ key number, diary.cache.slot key ≠ .inProgress number) :
    (diary.cache.get? key).isSome ↔ key ∈ startedKeys diary.history := by
  have hvacant : diary.cache.slot key = .vacant ↔ key ∉ startedKeys diary.history := h.vacant_iff
  unfold DetectionCache.get?
  cases hslot : diary.cache.slot key with
  | vacant => simpa [hslot] using hvacant
  | inProgress number => exact absurd hslot (hsettled key number)
  | filled number outcome => simpa [hslot] using hvacant

theorem Tells.encard_held (h : Tells diary)
    (hsettled : ∀ key number, diary.cache.slot key ≠ .inProgress number) :
    {key | (diary.cache.get? key).isSome}.encard = diary.cache.computations := by
  have hset : {key | (diary.cache.get? key).isSome} =
      ((startedKeys diary.history).toFinset : Set String) := by
    ext key
    simpa using h.get?_isSome_iff hsettled
  rw [hset, Set.encard_coe_eq_coe_finsetCard, List.toFinset_card_of_nodup h.nodup,
    h.computations_eq]

mutual

/-- A look-up is a call whose computation goes on in the same way whatever it is answered. -/
theorem call_plan (diary : Diary) : (lookup : Lookup) →
    (∃ after, call lookup.key (carryOut lookup.plan) diary = (after, none) ∧
        DetectionCache.run diary.cache lookup = none) ∨
      ∃ after answer, call lookup.key (carryOut lookup.plan) diary = (after, some answer) ∧
        DetectionCache.run diary.cache lookup = some (answer, after.cache)
  | .mk key outcome nested => by
    simp only [DetectionCache.run, call, Lookup.key, Lookup.plan]
    cases diary.cache.slot key with
    | vacant =>
      have hrest : (diary.start key).cache = diary.cache.start key := rfl
      rcases carryOut_planAll (diary.start key) outcome nested with
        ⟨after, hplan, hrun⟩ | ⟨after, hplan, hrun⟩ <;> rw [hrest] at hrun
      · exact .inl ⟨after, by simp only [hplan], by simp only [hrun, Option.map_none]⟩
      · refine .inr ⟨after.finish key diary.cache.computations outcome,
          (diary.cache.computations, outcome), by simp only [hplan], ?_⟩
        simp only [hrun, Option.map_some]
        rfl
    | inProgress number => exact .inl ⟨_, rfl, rfl⟩
    | filled number stored => exact .inr ⟨_, _, rfl, rfl⟩

theorem carryOut_planAll (diary : Diary) (outcome : DetectionOutcome) : (nested : List Lookup) →
    (∃ after, carryOut (Lookup.planAll nested outcome) diary = (after, none) ∧
        DetectionCache.runAll diary.cache nested = none) ∨
      ∃ after, carryOut (Lookup.planAll nested outcome) diary = (after, some outcome) ∧
        DetectionCache.runAll diary.cache nested = some after.cache
  | [] => .inr ⟨diary, rfl, rfl⟩
  | lookup :: rest => by
    rw [DetectionCache.runAll, Lookup.planAll, carryOut]
    rcases call_plan diary lookup with ⟨after, hcall, hrun⟩ | ⟨after, answer, hcall, hrun⟩
    · rw [hrun, hcall]
      exact .inl ⟨after, rfl, rfl⟩
    · rw [hrun, hcall]
      exact carryOut_planAll after outcome rest

end

theorem runAll_eq_callAll (lookups : List Lookup) (diary : Diary) :
    DetectionCache.runAll diary.cache lookups =
      (callAll (lookups.map fun lookup => (lookup.key, lookup.plan)) diary).2.map fun _ =>
        (callAll (lookups.map fun lookup => (lookup.key, lookup.plan)) diary).1.cache := by
  induction lookups generalizing diary with
  | nil => rfl
  | cons lookup rest ih =>
    rw [List.map_cons, callAll, DetectionCache.runAll]
    rcases call_plan diary lookup with ⟨after, hcall, hrun⟩ | ⟨after, answer, hcall, hrun⟩
    · rw [hrun, hcall]
      rfl
    · simp only [hrun, hcall, ih after, Option.map_map, Function.comp_def]

/-- What the calls of a new cache have come to, those that computations make among them. -/
structure OncePerCall (diary : Diary) : Prop where
  /-- A key that holds an outcome answers with it; any other key is computed, by the computation
  that the call brings along. -/
  call_eq : ∀ before event key, before ++ [event] <+: diary.history → event.asked? = some key →
    (∀ number outcome, .finished key number outcome ∈ before → event = .kept key number outcome) ∧
    ((∀ number outcome, .finished key number outcome ∉ before) →
      event = .started key (startedKeys before).length)
  started_once : (startedKeys diary.history).Nodup
  /-- A computation ends once, with the outcome that every call of its key is answered with. -/
  ended : ∀ key number, .started key number ∈ diary.history → ∃ outcome,
    .finished key number outcome ∈ diary.history ∧
      ∀ stored result, .finished key stored result ∈ diary.history ∨
        .kept key stored result ∈ diary.history → stored = number ∧ result = outcome
  looked : ∀ before key found, before ++ [.looked key found] <+: diary.history →
    ∀ number outcome, found = some (number, outcome) ↔ .finished key number outcome ∈ before
  counted : ∀ before count, before ++ [.counted count] <+: diary.history →
    count = (startedKeys before).length

theorem Leads.oncePerCall (h : Leads {} diary) (hapart : Apart diary.history)
    (hsettled : ∀ key number, diary.cache.slot key ≠ .inProgress number) : OncePerCall diary where
  call_eq before event key hbegins hasked := by
    have hlawful := h.lawful hbegins
    obtain ⟨moment, next, hmoment, rfl, hstep⟩ := h.exists_step hbegins
    cases event with
    | kept asked number outcome =>
      cases hasked
      refine ⟨?_, fun hnone => absurd hlawful (hnone number outcome)⟩
      intro stored result hfinished
      obtain ⟨rfl, rfl⟩ := (hmoment.tells.tellsOf key).finished_unique hfinished hlawful
      rfl
    | started asked number =>
      cases hasked
      obtain ⟨hfresh, rfl⟩ := hlawful
      refine ⟨?_, fun _ => rfl⟩
      intro stored result hfinished
      have hstarted := (hmoment.tells.tellsOf key).started_of_finished stored result hfinished
      exact absurd (mem_startedKeys.mpr ⟨stored, hstarted⟩) hfresh
    | waiting asked =>
      have hmem := hbegins.subset (List.mem_append_right _ List.mem_cons_self)
      exact absurd hmem (h.apart_iff.mp hapart asked)
    | finished | looked | counted => cases hasked
  started_once := h.tells.nodup
  ended key number hstarted := by
    have htells := h.tells.tellsOf key
    cases hslot : diary.cache.slot key with
    | vacant => exact absurd hstarted (htells.vacant_iff.mp hslot number)
    | inProgress number => exact absurd hslot (hsettled key number)
    | filled place outcome =>
      have hfinished := (htells.filled_iff place outcome).mp hslot
      have hplace := htells.started_of_finished place outcome hfinished
      rw [htells.started_unique number place hstarted hplace]
      refine ⟨outcome, hfinished, ?_⟩
      intro stored result hmem
      rcases hmem with hmem | hmem
      · exact htells.finished_unique hmem hfinished
      · obtain ⟨before, hbegins, hkept⟩ := h.exists_lawful hmem
        have hearlier := (List.prefix_append before _).trans hbegins
        exact htells.finished_unique (hearlier.subset hkept) hfinished
  looked before key found hbegins := h.lawful hbegins
  counted before count hbegins := h.lawful hbegins

/-- A call of a key that holds an outcome computes nothing, whatever it brings along. -/
theorem Tells.call_eq_of_finished (h : Tells diary)
    (hfinished : .finished key number outcome ∈ diary.history)
    (compute : Diary → Diary × Option DetectionOutcome) :
    call key compute diary = (diary.note (.kept key number outcome), some (number, outcome)) := by
  rw [call, ((h.tellsOf key).filled_iff number outcome).mpr hfinished]

/-- Calls on a new cache, whose computations may make calls on it in their turn, as they see fit and
to any depth, but none of the key of a call around it. Each call is answered, at once if its key
holds an outcome, and else by the computation that it starts. No key is computed twice, and all its
calls have the answer of its one computation. After each of the calls the cache has counted the
computations started so far, which are as many as there are keys that hold an outcome; looking at a
key shows what its computation has ended with. -/
theorem once_per_call (calls : List (String × Plan))
    (hapart : Apart (callAll calls {}).1.history) :
    let diary := (callAll calls {}).1
    OncePerCall diary ∧
    (∀ moment, Leads {} moment → ∀ key plan,
      (∀ number outcome, .finished key number outcome ∈ moment.history →
        call key (carryOut plan) moment =
          (moment.note (.kept key number outcome), some (number, outcome))) ∧
      ∀ after number outcome, call key (carryOut plan) moment = (after, some (number, outcome)) →
        Leads moment after ∧ .finished key number outcome ∈ after.history) ∧
    (∀ done rest, done ++ rest = calls →
      let earlier := (callAll done {}).1
      earlier.history <+: diary.history ∧
      (∃ answers, (callAll done {}).2 = some answers ∧
        List.Forall₂ (fun call answer => .finished call.1 answer.1 answer.2 ∈ earlier.history)
          done answers) ∧
      earlier.cache.computations = (startedKeys earlier.history).length ∧
      {key | (earlier.cache.get? key).isSome}.encard = earlier.cache.computations ∧
      ∀ key number outcome, earlier.cache.get? key = some (number, outcome) ↔
        .finished key number outcome ∈ earlier.history) ∧
    ∀ lookups : List Lookup, calls = lookups.map (fun lookup => (lookup.key, lookup.plan)) →
      DetectionCache.runAll {} lookups = some diary.cache := by
  intro diary
  have hleads : Leads {} diary := (carriesOn_callAll calls {}).leads
  obtain ⟨⟨answers, hanswers⟩, hsettled⟩ := answered_of_apart hapart
  refine ⟨hleads.oncePerCall hapart hsettled, ?_, ?_, ?_⟩
  · intro moment hmoment key plan
    constructor
    · intro number outcome hfinished
      exact hmoment.tells.call_eq_of_finished hfinished (carryOut plan)
    · intro after number outcome hcall
      have hafter := (carriesOn_call (carriesOn_carryOut plan) moment key).leads
      rw [hcall] at hafter
      exact ⟨hafter, finished_of_call hmoment.tells hcall⟩
  · intro done rest heq earlier
    have hfirst : Leads {} earlier := (carriesOn_callAll done {}).leads
    have hbegins : earlier.history <+: diary.history := by
      have hrest := leads_callAll_append done rest {}
      rw [heq] at hrest
      exact hrest.isPrefix
    obtain ⟨⟨answers, hanswers⟩, hsettled⟩ := answered_of_apart (hapart.of_isPrefix hbegins)
    have htells := hfirst.tells
    exact ⟨hbegins, ⟨answers, hanswers, finished_of_callAll .refl hanswers⟩,
      htells.computations_eq, htells.encard_held hsettled,
      fun key number outcome => htells.get?_eq_some_iff⟩
  · intro lookups hlookups
    have hrun := runAll_eq_callAll lookups {}
    rw [← hlookups, hanswers] at hrun
    exact hrun

/-- The first call computes another key, looks at its own, and asks for a third one only because the
other has failed; the calls after it find these keys computed. -/
theorem once_per_call_nested :
    let failure : DetectionOutcome := .failed (.source "scripted" "no repository")
    let nothing : DetectionOutcome := .changes ChangeSet.empty
    let other : Plan := .ask "b" (.produce nothing) fun known => .produce known.2
    let plan : Plan := .ask "b" (.produce failure) fun answer =>
      if answer.2 = failure then .ask "c" other fun _ => .look "a" fun _ => .produce nothing
      else .produce failure
    let calls := [("a", plan), ("c", .produce nothing), ("a", .produce failure)]
    let diary := (callAll calls {}).1
    (callAll calls {}).2 = some [(0, nothing), (2, failure), (0, nothing)] ∧
      {key | (diary.cache.get? key).isSome}.encard = 3 ∧ OncePerCall diary := by
  intro failure nothing other plan calls diary
  have hhistory : diary.history = [.started "a" 0, .started "b" 1, .finished "b" 1 failure,
      .started "c" 2, .kept "b" 1 failure, .finished "c" 2 failure, .looked "a" none,
      .finished "a" 0 nothing, .kept "c" 2 failure, .kept "a" 0 nothing] := by
    cbv
  have hnone : ∀ key, .waiting key ∉ diary.history := by
    simp [hhistory]
  have hapart : Apart diary.history := (carriesOn_callAll calls {}).leads.apart_iff.mpr hnone
  obtain ⟨honce, _, hearlier, _⟩ := once_per_call calls hapart
  obtain ⟨_, _, _, hcount, _⟩ := hearlier calls [] (List.append_nil calls)
  refine ⟨by cbv, ?_, honce⟩
  rw [hcount]
  cbv

end Diary

end TestSelection
