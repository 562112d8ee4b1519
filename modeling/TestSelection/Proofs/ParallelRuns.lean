import Mathlib.Algebra.GroupWithZero.Nat
import Mathlib.Data.List.Basic
import TestSelection.Detection.Parallel
import TestSelection.Proofs.SkippedTests

/-!
Runs of workers that share one cache. At every moment of a run nobody has started the detection,
or one worker is carrying it out while the others can do no more than reach the slot, or its
outcome is stored; the shared state is known in each of these phases. So a worker that decides has
decided as it would alone, and no worker waits for ever.
-/

namespace TestSelection.Crew

/-- What a run has come to: who carries out the detection, and how far it is. -/
inductive Phase
  | untouched
  | asking (index : Nat)
  | storing (index : Nat)
  | detected

/-- The worker that carries out the detection. -/
def Phase.worker? : Phase → Option Nat
  | .asking index => some index
  | .storing index => some index
  | .untouched => none
  | .detected => none

def IsActive : Progress → Prop
  | .asking _ _ => True
  | .storing _ _ _ => True
  | _ => False

/-- Whether deciding about a candidate needs to know the changes: it is a class, and its package
has a module. -/
def Demanding (graph : ModuleGraph) (candidate : TestCandidate) : Prop :=
  candidate.method = none ∧ ∃ name, graph.moduleForPackage candidate.package = some name

theorem demanding_iff {graph : ModuleGraph} {candidate : TestCandidate} :
    Demanding graph candidate ↔ ∃ name, Selector.module? graph candidate = some name := by
  simp [Demanding, Selector.module?_eq_some_iff]

instance (graph : ModuleGraph) (candidate : TestCandidate) :
    Decidable (Demanding graph candidate) :=
  decidable_of_iff ((Selector.module? graph candidate).isSome = true)
    (Option.isSome_iff_exists.trans demanding_iff.symm)

section

variable (selector : Selector) (read : BaselineReader) (graph : ModuleGraph) (calls : Nat)

/-- What the first detection of the run finds. -/
def found : DetectionOutcome := (selector.detect read calls).value

/-- What is decided about a candidate on a fresh run of its own. -/
def alone (candidate : TestCandidate) : Decision :=
  (selector.evaluate read graph ⟨calls, {}⟩ candidate).value.1

/-- The shared state in a phase. -/
def Phase.standing : Phase → Selector.Standing
  | .untouched => ⟨calls, {}⟩
  | .asking _ => ⟨calls, .start {} changesKey⟩
  | .storing _ => ⟨calls + 1, .start {} changesKey⟩
  | .detected => ⟨calls + 1, .store (.start {} changesKey) 0 (found selector read calls)⟩

/-- How far the worker with the given index can be in a phase. -/
def Fits (phase : Phase) (index : Nat) (candidate : TestCandidate) : Progress → Prop
  | .waiting => True
  | .located name => Selector.module? graph candidate = some name
  | .atSlot name => Selector.module? graph candidate = some name
  | .asking name number =>
    Selector.module? graph candidate = some name ∧ phase = .asking index ∧ number = 0
  | .storing name number stored =>
    Selector.module? graph candidate = some name ∧ phase = .storing index ∧ number = 0 ∧
      stored = found selector read calls
  | .decided decision =>
    decision = alone selector read graph calls candidate ∧
      (phase = .detected ∨ Selector.module? graph candidate = none)

/-- What holds of the workers on `candidates` at every moment of a run. -/
structure Invariant (candidates : List TestCandidate) (crew : Crew) (phase : Phase) : Prop where
  candidates_eq : crew.members.map Prod.fst = candidates
  standing_eq : crew.standing = phase.standing selector read calls
  fits : ∀ index candidate progress, crew.members[index]? = some (candidate, progress) →
    Fits selector read graph calls phase index candidate progress
  active : ∀ index, phase.worker? = some index →
    ∃ candidate progress, crew.members[index]? = some (candidate, progress) ∧ IsActive progress
  demanded : phase = .untouched ∨ ∃ candidate ∈ candidates, Demanding graph candidate

variable {selector read graph calls} {candidates : List TestCandidate}

theorem invariant_assemble :
    Invariant selector read graph calls candidates (assemble calls candidates) .untouched where
  candidates_eq := by simp [assemble, Function.comp_def]
  standing_eq := rfl
  fits index candidate progress h := by
    simp only [assemble, List.getElem?_map, Option.map_eq_some_iff, Prod.mk.injEq] at h
    obtain ⟨_, _, _, rfl⟩ := h
    trivial
  active index h := by cases h
  demanded := Or.inl rfl

/-- The look of the slot tells the phases apart as far as a worker needs it. -/
theorem slot_standing (phase : Phase) :
    (phase.standing selector read calls).cache.slot changesKey =
      match phase with
      | .untouched => .vacant
      | .asking _ => .inProgress 0
      | .storing _ => .inProgress 0
      | .detected => .filled 0 (found selector read calls) := by
  cases phase <;> rfl

theorem alone_of_module? {candidate : TestCandidate} {name : String}
    (h : Selector.module? graph candidate = some name) :
    alone selector read graph calls candidate = graph.decide name (found selector read calls) :=
  Selector.evaluate_of_module? selector read graph ⟨calls, {}⟩ candidate h

theorem alone_of_unlocated {candidate : TestCandidate}
    (h : Selector.module? graph candidate = none) :
    alone selector read graph calls candidate = Selector.unlocated candidate :=
  Selector.evaluate_of_unlocated selector read graph ⟨calls, {}⟩ candidate h

variable (selector read graph calls) in
/-- What a step of the worker at `index`, after which it is at `after`, does to the phase and to
what the other workers may be doing. -/
structure Moves (phase next : Phase) (index : Nat) (candidate : TestCandidate)
    (after : Progress) : Prop where
  fits : Fits selector read graph calls next index candidate after
  others : ∀ other candidate progress, other ≠ index →
    Fits selector read graph calls phase other candidate progress →
      Fits selector read graph calls next other candidate progress
  active : ∀ worker, next.worker? = some worker →
    worker = index ∧ IsActive after ∨ worker ≠ index ∧ phase.worker? = some worker
  demanded : next = phase ∨ Demanding graph candidate

/-- A worker that is not carrying out the detection moves on by itself. -/
theorem Moves.stay {phase : Phase} {index : Nat} {candidate : TestCandidate} {after : Progress}
    (hidle : phase.worker? ≠ some index)
    (hfits : Fits selector read graph calls phase index candidate after) :
    Moves selector read graph calls phase phase index candidate after where
  fits := hfits
  others _ _ _ _ h := h
  active _ h := Or.inr ⟨fun heq => hidle (heq ▸ h), h⟩
  demanded := Or.inl rfl

/-- While nothing is stored, a worker that does not carry out the detection has not got anywhere
that another phase rules out. -/
theorem Fits.of_undetected {phase next : Phase} {index : Nat} {candidate : TestCandidate}
    {progress : Progress} (h : Fits selector read graph calls phase index candidate progress)
    (hidle : phase.worker? ≠ some index) (hundetected : phase ≠ .detected) :
    Fits selector read graph calls next index candidate progress := by
  cases progress with
  | waiting => trivial
  | located name => exact h
  | atSlot name => exact h
  | asking name number =>
    obtain ⟨_, rfl, _⟩ := h
    exact absurd rfl hidle
  | storing name number stored =>
    obtain ⟨_, rfl, _⟩ := h
    exact absurd rfl hidle
  | decided decision => exact ⟨h.1, Or.inr (h.2.resolve_left hundetected)⟩

/-- The worker that carries out the detection brings the run to its next phase. -/
theorem Moves.shift {phase next : Phase} {index : Nat} {candidate : TestCandidate}
    {after : Progress} {name : String} (hlocated : Selector.module? graph candidate = some name)
    (hundetected : phase ≠ .detected)
    (hworker : ∀ other, phase.worker? = some other → other = index)
    (hfits : Fits selector read graph calls next index candidate after)
    (hnext : ∀ worker, next.worker? = some worker → worker = index ∧ IsActive after) :
    Moves selector read graph calls phase next index candidate after where
  fits := hfits
  others other _ _ hother h :=
    h.of_undetected (fun hsome => hother (hworker other hsome)) hundetected
  active worker h := Or.inl (hnext worker h)
  demanded := Or.inr (demanding_iff.mpr ⟨name, hlocated⟩)

/-- What one step of a worker does: it stays in the phase, or it is the worker that carries out
the detection and brings the run to the next phase. -/
theorem exists_moves_of_advance {phase : Phase} {index : Nat} {candidate : TestCandidate}
    {progress after : Progress} {slots slots' : List String} {standing' : Selector.Standing}
    (hfits : Fits selector read graph calls phase index candidate progress)
    (hactive : phase.worker? = some index → IsActive progress)
    (hstep : advance selector read graph slots (phase.standing selector read calls) candidate
      progress = some (slots', standing', after)) :
    ∃ next : Phase, standing' = next.standing selector read calls ∧
      Moves selector read graph calls phase next index candidate after := by
  cases progress with
  | waiting =>
    simp only [advance] at hstep
    split at hstep
    · next hnone =>
      cases hstep
      exact ⟨phase, rfl, Moves.stay hactive ⟨(alone_of_unlocated hnone).symm, Or.inr hnone⟩⟩
    · next name hsome =>
      cases hstep
      exact ⟨phase, rfl, Moves.stay hactive hsome⟩
  | located name =>
    cases hstep
    exact ⟨phase, rfl, Moves.stay hactive hfits⟩
  | atSlot name =>
    simp only [advance, slot_standing] at hstep
    cases phase with
    | untouched =>
      cases hstep
      refine ⟨.asking index, rfl, Moves.shift hfits ?_ ?_ ⟨hfits, rfl, rfl⟩ ?_⟩
      · intro h
        cases h
      · intro other h
        cases h
      · intro worker h
        cases h
        exact ⟨rfl, trivial⟩
    | asking worker => cases hstep
    | storing worker => cases hstep
    | detected =>
      cases hstep
      exact ⟨.detected, rfl, Moves.stay hactive ⟨(alone_of_module? hfits).symm, Or.inl rfl⟩⟩
  | asking name number =>
    obtain ⟨hlocated, rfl, rfl⟩ := hfits
    cases hstep
    refine ⟨.storing index, rfl, Moves.shift hlocated ?_ ?_ ⟨hlocated, rfl, rfl, rfl⟩ ?_⟩
    · intro h
      cases h
    · intro other h
      cases h
      rfl
    · intro worker h
      cases h
      exact ⟨rfl, trivial⟩
  | storing name number stored =>
    obtain ⟨hlocated, rfl, rfl, rfl⟩ := hfits
    cases hstep
    refine ⟨.detected, rfl, Moves.shift hlocated ?_ ?_
      ⟨(alone_of_module? hlocated).symm, Or.inl rfl⟩ ?_⟩
    · intro h
      cases h
    · intro other h
      cases h
      rfl
    · intro worker h
      cases h
  | decided decision => cases hstep

theorem step_eq_some {crew next : Crew} {index : Nat}
    (h : crew.step selector read graph index = some next) :
    ∃ candidate progress slots standing after,
      crew.members[index]? = some (candidate, progress) ∧
      advance selector read graph crew.slots crew.standing candidate progress =
        some (slots, standing, after) ∧
      next = ⟨slots, standing, crew.members.set index (candidate, after)⟩ := by
  unfold step at h
  split at h
  · cases h
  · next candidate progress hmember =>
    obtain ⟨⟨slots, standing, after⟩, hadvance, rfl⟩ := Option.map_eq_some_iff.mp h
    exact ⟨candidate, progress, slots, standing, after, hmember, hadvance, rfl⟩

theorem map_fst_set {members : List (TestCandidate × Progress)} {index : Nat}
    {candidate : TestCandidate} {progress : Progress}
    (h : members[index]? = some (candidate, progress)) (after : Progress) :
    (members.set index (candidate, after)).map Prod.fst = members.map Prod.fst := by
  apply List.ext_getElem?
  intro other
  rw [List.map_set, List.getElem?_set]
  split
  · next heq =>
    subst heq
    obtain ⟨hlength, _⟩ := List.getElem?_eq_some_iff.mp h
    rw [if_pos (by simpa using hlength), List.getElem?_map, h]
    rfl
  · rfl

/-- The worker that carries out the detection is where its phase says. -/
theorem Invariant.isActive {crew : Crew} {phase : Phase} {index : Nat}
    {candidate : TestCandidate} {progress : Progress}
    (hinv : Invariant selector read graph calls candidates crew phase)
    (hmember : crew.members[index]? = some (candidate, progress))
    (hworker : phase.worker? = some index) : IsActive progress := by
  obtain ⟨_, _, hother, hactive⟩ := hinv.active index hworker
  rw [hmember] at hother
  cases hother
  exact hactive

theorem invariant_step {crew next : Crew} {phase : Phase} {index : Nat}
    (hinv : Invariant selector read graph calls candidates crew phase)
    (hstep : crew.step selector read graph index = some next) :
    ∃ phase', Invariant selector read graph calls candidates next phase' := by
  obtain ⟨candidate, progress, slots, standing, after, hmember, hadvance, rfl⟩ :=
    step_eq_some hstep
  rw [hinv.standing_eq] at hadvance
  obtain ⟨phase', rfl, hmoves⟩ := exists_moves_of_advance
    (hinv.fits index candidate progress hmember) (hinv.isActive hmember) hadvance
  have hindex : index < crew.members.length := (List.getElem?_eq_some_iff.mp hmember).1
  refine ⟨phase', ?_, rfl, ?_, ?_, ?_⟩
  · rw [map_fst_set hmember]
    exact hinv.candidates_eq
  · intro other otherCandidate otherProgress hother
    by_cases heq : other = index
    · subst heq
      rw [List.getElem?_set_self hindex] at hother
      cases hother
      exact hmoves.fits
    · rw [List.getElem?_set_ne (Ne.symm heq)] at hother
      exact hmoves.others other _ _ heq (hinv.fits other _ _ hother)
  · intro worker hworker
    rcases hmoves.active worker hworker with ⟨rfl, hafter⟩ | ⟨hne, hbefore⟩
    · exact ⟨candidate, after, List.getElem?_set_self hindex, hafter⟩
    · obtain ⟨other, otherProgress, hother, hotherActive⟩ := hinv.active worker hbefore
      refine ⟨other, otherProgress, ?_, hotherActive⟩
      rw [List.getElem?_set_ne (Ne.symm hne)]
      exact hother
  · rcases hmoves.demanded with rfl | hdemanding
    · exact hinv.demanded
    · refine Or.inr ⟨candidate, ?_, hdemanding⟩
      rw [← hinv.candidates_eq]
      exact List.mem_map.mpr ⟨_, List.mem_of_getElem? hmember, rfl⟩

theorem run_cons (crew : Crew) (index : Nat) (rest : List Nat) :
    crew.run selector read graph (index :: rest) =
      ((crew.step selector read graph index).getD crew).run selector read graph rest := rfl

theorem invariant_run (schedule : List Nat) {crew : Crew} {phase : Phase}
    (hinv : Invariant selector read graph calls candidates crew phase) :
    ∃ phase', Invariant selector read graph calls candidates
      (crew.run selector read graph schedule) phase' := by
  induction schedule generalizing crew phase with
  | nil => exact ⟨phase, hinv⟩
  | cons index rest ih =>
    cases hstep : crew.step selector read graph index with
    | none =>
      rw [run_cons, hstep]
      exact ih hinv
    | some next =>
      obtain ⟨phase', hnext⟩ := invariant_step hinv hstep
      rw [run_cons, hstep]
      exact ih hnext

theorem advance_of_isActive (slots : List String) (standing : Selector.Standing)
    (candidate : TestCandidate) {progress : Progress} (h : IsActive progress) :
    ∃ moved, advance selector read graph slots standing candidate progress = some moved := by
  cases progress with
  | asking name number => exact ⟨_, rfl⟩
  | storing name number stored => exact ⟨_, rfl⟩
  | waiting => cases h
  | located name => cases h
  | atSlot name => cases h
  | decided decision => cases h

/-- Between detections, every worker that has not decided can step. -/
theorem advance_of_undecided {phase : Phase} (hidle : phase.worker? = none) (slots : List String)
    (candidate : TestCandidate) {progress : Progress} (h : progress.decision? = none) :
    ∃ moved, advance selector read graph slots (phase.standing selector read calls) candidate
      progress = some moved := by
  cases progress with
  | waiting =>
    simp only [advance]
    split <;> exact ⟨_, rfl⟩
  | located name => exact ⟨_, rfl⟩
  | atSlot name =>
    simp only [advance, slot_standing]
    cases phase with
    | untouched => exact ⟨_, rfl⟩
    | detected => exact ⟨_, rfl⟩
    | asking worker => cases hidle
    | storing worker => cases hidle
  | asking name number => exact ⟨_, rfl⟩
  | storing name number stored => exact ⟨_, rfl⟩
  | decided decision => cases h

/-- Some worker can step as long as one has not decided. -/
theorem exists_step {crew : Crew} {phase : Phase}
    (hinv : Invariant selector read graph calls candidates crew phase)
    (hopen : crew.isDone = false) :
    ∃ index next, crew.step selector read graph index = some next := by
  have hstep : ∀ (index : Nat) candidate progress,
      crew.members[index]? = some (candidate, progress) →
      (∃ moved, advance selector read graph crew.slots crew.standing candidate progress =
        some moved) → ∃ index next, crew.step selector read graph index = some next := by
    intro index candidate progress hmember hmoved
    obtain ⟨⟨slots, standing, after⟩, hadvance⟩ := hmoved
    refine ⟨index, ⟨slots, standing, crew.members.set index (candidate, after)⟩, ?_⟩
    unfold step
    rw [hmember]
    simp only [hadvance, Option.map_some]
  cases hworker : phase.worker? with
  | some index =>
    obtain ⟨candidate, progress, hmember, hactive⟩ := hinv.active index hworker
    exact hstep index candidate progress hmember (advance_of_isActive _ _ candidate hactive)
  | none =>
    obtain ⟨⟨candidate, progress⟩, hmem, hundecided⟩ := List.all_eq_false.mp hopen
    obtain ⟨index, hmember⟩ := List.mem_iff_getElem?.mp hmem
    refine hstep index candidate progress hmember ?_
    rw [hinv.standing_eq]
    exact advance_of_undecided hworker _ candidate (by simpa using hundecided)

/-- How many steps a worker has left. -/
def stepsLeft : Progress → Nat
  | .waiting => 5
  | .located _ => 4
  | .atSlot _ => 3
  | .asking _ _ => 2
  | .storing _ _ _ => 1
  | .decided _ => 0

def remaining (crew : Crew) : Nat := (crew.members.map fun member => stepsLeft member.2).sum

theorem stepsLeft_lt_of_advance {slots slots' : List String}
    {standing standing' : Selector.Standing} {candidate : TestCandidate}
    {progress after : Progress}
    (h : advance selector read graph slots standing candidate progress =
      some (slots', standing', after)) : stepsLeft after < stepsLeft progress := by
  cases progress with
  | waiting =>
    simp only [advance] at h
    split at h <;> cases h <;> simp [stepsLeft]
  | located name =>
    cases h
    simp [stepsLeft]
  | atSlot name =>
    simp only [advance] at h
    split at h <;> cases h <;> simp [stepsLeft]
  | asking name number =>
    cases h
    simp [stepsLeft]
  | storing name number stored =>
    cases h
    simp [stepsLeft]
  | decided decision => cases h

theorem sum_stepsLeft_set_lt {members : List (TestCandidate × Progress)} {index : Nat}
    {before after : TestCandidate × Progress} (h : members[index]? = some before)
    (hlt : stepsLeft after.2 < stepsLeft before.2) :
    ((members.set index after).map fun member => stepsLeft member.2).sum <
      (members.map fun member => stepsLeft member.2).sum := by
  induction members generalizing index with
  | nil => cases h
  | cons first rest ih =>
    cases index with
    | zero =>
      cases h
      simp only [List.set_cons_zero, List.map_cons, List.sum_cons]
      omega
    | succ index =>
      have hrest := ih (show rest[index]? = some before from h)
      simp only [List.set_cons_succ, List.map_cons, List.sum_cons]
      omega

theorem remaining_lt_of_step {crew next : Crew} {index : Nat}
    (h : crew.step selector read graph index = some next) : next.remaining < crew.remaining := by
  obtain ⟨candidate, progress, slots, standing, after, hmember, hadvance, rfl⟩ := step_eq_some h
  exact sum_stepsLeft_set_lt hmember (stepsLeft_lt_of_advance hadvance)

/-- Every run can be brought to its end. -/
theorem exists_schedule_isDone {crew : Crew} {phase : Phase}
    (hinv : Invariant selector read graph calls candidates crew phase) :
    ∃ schedule, (crew.run selector read graph schedule).isDone = true := by
  induction hleft : crew.remaining using Nat.strong_induction_on generalizing crew phase with
  | h left ih =>
    cases hdone : crew.isDone with
    | true => exact ⟨[], hdone⟩
    | false =>
      obtain ⟨index, next, hstep⟩ := exists_step hinv hdone
      obtain ⟨phase', hnext⟩ := invariant_step hinv hstep
      have hlt : next.remaining < left := hleft ▸ remaining_lt_of_step hstep
      obtain ⟨schedule, hschedule⟩ := ih next.remaining hlt hnext rfl
      refine ⟨index :: schedule, ?_⟩
      rw [run_cons, hstep]
      exact hschedule

theorem decision?_of_isDone {crew : Crew} {phase : Phase}
    (hinv : Invariant selector read graph calls candidates crew phase)
    (hdone : crew.isDone = true) {candidate : TestCandidate} {progress : Progress}
    (hmem : (candidate, progress) ∈ crew.members) :
    progress = .decided (alone selector read graph calls candidate) ∧
      (phase = .detected ∨ Selector.module? graph candidate = none) := by
  obtain ⟨index, hmember⟩ := List.mem_iff_getElem?.mp hmem
  have hfits := hinv.fits index candidate progress hmember
  have hdecided := List.all_eq_true.mp hdone _ hmem
  cases progress with
  | decided decision => exact ⟨congrArg Progress.decided hfits.1, hfits.2⟩
  | waiting => cases hdecided
  | located name => cases hdecided
  | atSlot name => cases hdecided
  | asking name number => cases hdecided
  | storing name number stored => cases hdecided

theorem tests_of_isDone {crew : Crew} {phase : Phase}
    (hinv : Invariant selector read graph calls candidates crew phase)
    (hdone : crew.isDone = true) :
    crew.tests = candidates.map fun candidate =>
      TestReport.of candidate.text (alone selector read graph calls candidate) := by
  rw [← hinv.candidates_eq, List.map_map]
  unfold tests
  rw [← List.filterMap_eq_map]
  apply List.filterMap_congr
  intro member hmem
  obtain ⟨candidate, progress⟩ := member
  rw [(decision?_of_isDone hinv hdone hmem).1]
  rfl

/-- The detection has been carried out at the end of a run exactly if a candidate demanded it. -/
theorem standing_of_isDone {crew : Crew} {phase : Phase}
    (hinv : Invariant selector read graph calls candidates crew phase)
    (hdone : crew.isDone = true) :
    crew.standing =
      if ∃ candidate ∈ candidates, Demanding graph candidate then
        Phase.detected.standing selector read calls
      else Phase.untouched.standing selector read calls := by
  rw [hinv.standing_eq]
  have hactive : ∀ index, phase.worker? ≠ some index := by
    intro index hworker
    obtain ⟨candidate, progress, hmember, hactive⟩ := hinv.active index hworker
    rw [(decision?_of_isDone hinv hdone (List.mem_of_getElem? hmember)).1] at hactive
    cases hactive
  cases phase with
  | asking index => exact absurd rfl (hactive index)
  | storing index => exact absurd rfl (hactive index)
  | detected => rw [if_pos (hinv.demanded.resolve_left (by simp))]
  | untouched =>
    rw [if_neg]
    intro hdemanding
    obtain ⟨candidate, hcandidate, hdemanding⟩ := hdemanding
    rw [← hinv.candidates_eq] at hcandidate
    obtain ⟨⟨_, progress⟩, hmem, rfl⟩ := List.mem_map.mp hcandidate
    obtain ⟨name, hname⟩ := demanding_iff.mp hdemanding
    rcases (decision?_of_isDone hinv hdone hmem).2 with hphase | hnone
    · cases hphase
    · rw [hname] at hnone
      cases hnone

end

end TestSelection.Crew
