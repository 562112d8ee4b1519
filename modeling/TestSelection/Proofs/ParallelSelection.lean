import TestSelection.Proofs.ParallelRuns

/-!
The order of steps does not show in a report. Once every worker has decided, the report is the one
of deciding about the candidates one after the other: it lists what each would get alone, and it
tells of a failed detection exactly if a candidate asked for one.
-/

namespace TestSelection.Crew

section

variable {selector : Selector} {read : BaselineReader} {graph : ModuleGraph} {calls : Nat}
variable {candidates : List TestCandidate}

theorem failure?_detected :
    (Phase.detected.standing selector read calls).failure? = (found selector read calls).error? :=
  rfl

theorem failure?_untouched : (Phase.untouched.standing selector read calls).failure? = none := rfl

theorem error?_found {error : DetectionError} :
    (found selector read calls).error? = some error ↔
      (selector.source.report read calls).value = .error error := by
  unfold found
  rw [Selector.detect_value]
  cases (selector.source.report read calls).value <;> simp [DetectionOutcome.error?]

/-- Whether detection fails or nobody asks for it, no test is skipped without known changes. -/
theorem alone_run_of_error {error : DetectionError}
    (h : (selector.source.report read calls).value = .error error) (candidate : TestCandidate) :
    (alone selector read graph calls candidate).verdict = .run := by
  cases hmodule : Selector.module? graph candidate with
  | none =>
    rw [alone_of_unlocated hmodule]
    exact Selector.unlocated_run candidate
  | some name =>
    have hfailed : found selector read calls = .failed error := by
      unfold found
      rw [Selector.detect_value, h]
    rw [alone_of_module? hmodule, hfailed]
    rfl

/-- A test is reported for a candidate, with what has been decided about it. -/
structure Reported (candidate : TestCandidate) (decision : Decision) (test : TestReport) :
    Prop where
  test_eq : test.test = candidate.text
  verdict_eq : test.verdict = decision.verdict
  reason_eq : test.reason = decision.reason.message

variable (selector read graph calls candidates) in
/-- What a report on `candidates` says when their run asks the source for the first time after
`calls` earlier times. -/
structure Faithful (report : SelectReport) : Prop where
  tests : List.Forall₂ (fun candidate test => Reported candidate
    (selector.evaluate read graph ⟨calls, {}⟩ candidate).value.1 test) candidates report.tests
  error_iff : ∀ message, report.detectionError = some message ↔
    (∃ candidate ∈ candidates, Demanding graph candidate) ∧
      ∃ error, (selector.source.report read calls).value = .error error ∧ error.message = message
  run_of_error : report.detectionError ≠ none → ∀ test ∈ report.tests, test.verdict = .run
  total_eq : report.summary.total = candidates.length
  run_eq : report.summary.run = (report.tests.filter fun test => test.verdict = .run).length
  run_add_skip : report.summary.run + report.summary.skip = report.summary.total

theorem detectionError_of_isDone {crew : Crew} {phase : Phase}
    (hinv : Invariant selector read graph calls candidates crew phase)
    (hdone : crew.isDone = true) (message : String) :
    (crew.report selector).detectionError = some message ↔
      (∃ candidate ∈ candidates, Demanding graph candidate) ∧
        ∃ error, (selector.source.report read calls).value = .error error ∧
          error.message = message := by
  have herror : (crew.report selector).detectionError =
      crew.standing.failure?.map (·.message) := rfl
  rw [herror, standing_of_isDone hinv hdone]
  by_cases hdemanding : ∃ candidate ∈ candidates, Demanding graph candidate
  · rw [if_pos hdemanding, failure?_detected, Option.map_eq_some_iff]
    simp only [error?_found, hdemanding, true_and]
  · rw [if_neg hdemanding, failure?_untouched]
    simp [hdemanding]

theorem faithful_of_isDone {crew : Crew} {phase : Phase}
    (hinv : Invariant selector read graph calls candidates crew phase)
    (hdone : crew.isDone = true) :
    Faithful selector read graph calls candidates (crew.report selector) := by
  have htests : (crew.report selector).tests = candidates.map fun candidate =>
      TestReport.of candidate.text (alone selector read graph calls candidate) :=
    tests_of_isDone hinv hdone
  have herror := detectionError_of_isDone hinv hdone
  have hcount : (crew.report selector).summary.run ≤ (crew.report selector).summary.total :=
    List.countP_le_length
  refine ⟨?_, herror, ?_, ?_, List.countP_eq_length_filter, Nat.add_sub_cancel' hcount⟩
  · rw [htests, List.forall₂_map_right_iff, List.forall₂_same]
    exact fun candidate _ => ⟨rfl, rfl, rfl⟩
  · intro hsome test htest
    obtain ⟨message, hmessage⟩ := Option.ne_none_iff_exists'.mp hsome
    obtain ⟨_, error, hfailed, _⟩ := (herror message).mp hmessage
    rw [htests] at htest
    obtain ⟨candidate, _, rfl⟩ := List.mem_map.mp htest
    exact alone_run_of_error hfailed candidate
  · have hlength := congrArg List.length htests
    rwa [List.length_map] at hlength

theorem evaluate_detected (candidate : TestCandidate) :
    (selector.evaluate read graph (Phase.detected.standing selector read calls) candidate).value =
      (alone selector read graph calls candidate, Phase.detected.standing selector read calls) := by
  cases hmodule : Selector.module? graph candidate with
  | none =>
    rw [alone_of_unlocated hmodule]
    simp only [Selector.evaluate, hmodule]
  | some name =>
    rw [alone_of_module? hmodule]
    simp only [Selector.evaluate, hmodule]
    rfl

theorem evaluate_untouched (candidate : TestCandidate) :
    (selector.evaluate read graph ⟨calls, {}⟩ candidate).value =
      (alone selector read graph calls candidate,
        if Demanding graph candidate then Phase.detected.standing selector read calls
        else ⟨calls, {}⟩) := by
  cases hmodule : Selector.module? graph candidate with
  | none =>
    have hundemanding : ¬ Demanding graph candidate := by simp [demanding_iff, hmodule]
    rw [alone_of_unlocated hmodule, if_neg hundemanding]
    simp only [Selector.evaluate, hmodule]
  | some name =>
    rw [alone_of_module? hmodule, if_pos (demanding_iff.mpr ⟨name, hmodule⟩)]
    simp only [Selector.evaluate, hmodule]
    rfl

theorem decideAll_detected (candidates : List TestCandidate) :
    (selector.decideAll read graph (Phase.detected.standing selector read calls) candidates).value =
      (candidates.map fun candidate =>
        TestReport.of candidate.text (alone selector read graph calls candidate),
        Phase.detected.standing selector read calls) := by
  induction candidates with
  | nil => rfl
  | cons candidate rest ih =>
    simp only [Selector.decideAll, Logged.bind, evaluate_detected, ih, Logged.pure, List.map_cons]

theorem decideAll_untouched (candidates : List TestCandidate) :
    (selector.decideAll read graph ⟨calls, {}⟩ candidates).value =
      (candidates.map fun candidate =>
        TestReport.of candidate.text (alone selector read graph calls candidate),
        if ∃ candidate ∈ candidates, Demanding graph candidate then
          Phase.detected.standing selector read calls
        else ⟨calls, {}⟩) := by
  induction candidates with
  | nil => simp [Selector.decideAll, Logged.pure]
  | cons candidate rest ih =>
    by_cases hdemanding : Demanding graph candidate
    · simp only [Selector.decideAll, Logged.bind, evaluate_untouched, hdemanding, if_true,
        decideAll_detected, Logged.pure, List.map_cons, List.exists_mem_cons_iff, true_or]
    · simp only [Selector.decideAll, Logged.bind, evaluate_untouched, hdemanding, if_false, ih,
        Logged.pure, List.map_cons, List.exists_mem_cons_iff, false_or]

/-- The end of a run is the end of deciding about one candidate after the other. -/
theorem report_of_isDone {crew : Crew} {phase : Phase}
    (hinv : Invariant selector read graph calls candidates crew phase)
    (hdone : crew.isDone = true) :
    let decided := (selector.decideAll read graph ⟨calls, {}⟩ candidates).value
    crew.report selector = selector.report decided.2 decided.1 := by
  intro decided
  have hdecided : decided = _ := decideAll_untouched candidates
  rw [hdecided, ← tests_of_isDone hinv hdone]
  unfold report
  rw [standing_of_isDone hinv hdone]
  rfl

/-- However the steps of the workers are interleaved, the run can be brought to its end. At the end
it has asked the source once if some candidate demands it and else never, its report is faithful,
and it is the report of deciding about one candidate after the other. -/
theorem report_of_interleaving (selector : Selector) (read : BaselineReader) (graph : ModuleGraph)
    (calls : Nat) (candidates : List TestCandidate) (schedule : List Nat) :
    let crew := (assemble calls candidates).run selector read graph schedule
    let decided := (selector.decideAll read graph ⟨calls, {}⟩ candidates).value
    (∃ rest, (crew.run selector read graph rest).isDone = true) ∧
      (crew.isDone = true →
        crew.standing.calls =
          calls + (if ∃ candidate ∈ candidates, Demanding graph candidate then 1 else 0) ∧
        Faithful selector read graph calls candidates (crew.report selector) ∧
        crew.report selector = selector.report decided.2 decided.1) := by
  intro crew decided
  obtain ⟨phase, hinv⟩ : ∃ phase, Invariant selector read graph calls candidates crew phase :=
    invariant_run schedule invariant_assemble
  refine ⟨exists_schedule_isDone hinv, ?_⟩
  intro hdone
  refine ⟨?_, faithful_of_isDone hinv hdone, report_of_isDone hinv hdone⟩
  rw [standing_of_isDone hinv hdone]
  split <;> rfl

/-- Two workers race for a detection that fails, a third has nothing to ask for. -/
theorem report_of_interleaving_in_shop :
    let candidates : List TestCandidate :=
      [⟨"a.b.OrderTest", none⟩, ⟨"x.shipping.CartTest", none⟩, ⟨"a.b.OrderTest", some "adds"⟩]
    let reports : Nat → FileReport := fun calls =>
      if calls = 0 then .error (.source "scripted" "no repository") else .ok []
    let selector : Selector := ⟨"repo", .custom "scripted" "scripted" reports, .default⟩
    let read : BaselineReader := fun _ => Logged.pure (.ok [])
    let schedule := [0, 1, 1, 0, 1, 0, 1, 2, 0, 1, 0]
    ((assemble 0 candidates).run selector read ModuleGraph.shop schedule).isDone = true ∧
      ((assemble 0 candidates).run selector read ModuleGraph.shop schedule).standing.calls = 1 ∧
      Faithful selector read ModuleGraph.shop 0 candidates
        (((assemble 0 candidates).run selector read ModuleGraph.shop
          schedule).report selector) ∧
      (((assemble 0 candidates).run selector read ModuleGraph.shop
          schedule).report selector).tests =
        [⟨"a.b.OrderTest", .run, "change detection failed"⟩,
          ⟨"x.shipping.CartTest", .run, "change detection failed"⟩,
          ⟨"a.b.OrderTest#adds", .run, "method of an enabled test class"⟩] := by
  intro candidates reports selector read schedule
  have hdone :
      ((assemble 0 candidates).run selector read ModuleGraph.shop schedule).isDone = true := by
    decide
  have htests :
      (((assemble 0 candidates).run selector read ModuleGraph.shop
          schedule).report selector).tests =
        [⟨"a.b.OrderTest", .run, "change detection failed"⟩,
          ⟨"x.shipping.CartTest", .run, "change detection failed"⟩,
          ⟨"a.b.OrderTest#adds", .run, "method of an enabled test class"⟩] := by
    decide +kernel
  have hdemanding : ∃ candidate ∈ candidates, Demanding ModuleGraph.shop candidate := by decide
  obtain ⟨hcalls, hfaithful, _⟩ :=
    (report_of_interleaving selector read ModuleGraph.shop 0 candidates schedule).2 hdone
  rw [if_pos hdemanding] at hcalls
  exact ⟨hdone, hcalls, hfaithful, htests⟩

end

end TestSelection.Crew
