import Mathlib
import TestSelection.Proofs.Obstacles
import TestSelection.Proofs.ParallelSelection

/-!
What the exit code of a command says. A command that meets with an obstacle prints nothing and never
comes to ask the repository; its exit code tells what kind of obstacle it was. A command that meets
with none fails only if it lists changes and does not come to know them. To select tests never fails
then: without known changes every test runs, and one warning says why.
-/

namespace TestSelection.CommandLine

section

variable {around : Surroundings} {invocation : Invocation} {arguments : List String}
  {command : Command} {obstacle : Obstacle} {session : Session} {output : OutputFormat}
  {noColor : Bool} {tests : List String} {given : Option String}

/-- What keeps a command from being carried out. A step of the command is only looked at when the
steps before it have succeeded. -/
inductive Obstructed (around : Surroundings) (invocation : Invocation) :
    Command → Obstacle → Prop
  | start {command : Command} {obstacle : Obstacle} (h : Startless around invocation obstacle) :
      Obstructed around invocation command obstacle
  | graph {tests : List String} {given : Option String} {output : OutputFormat} {noColor : Bool}
      {session : Session} {obstacle : Obstacle}
      (hsession : startedSession around invocation = .ok session)
      (h : Graphless around session given obstacle) :
      Obstructed around invocation (.select tests given output noColor) obstacle
  | candidates {tests : List String} {given : Option String} {output : OutputFormat}
      {noColor : Bool} {session : Session} {graph : ModuleGraph} {obstacle : Obstacle}
      (hsession : startedSession around invocation = .ok session)
      (hgraph : (readGraph around session given).2 = .ok graph)
      (h : Unidentified (tokens (inputLines around.input around.inputFault) tests) obstacle) :
      Obstructed around invocation (.select tests given output noColor) obstacle

section Steps

theorem after_refused {notices more : List Notice} {refusal : Refusal} :
    after notices (refused more refusal) = refused (notices ++ more) refusal := by
  simp [after, refused]

theorem run_of_failure {failure : Failure}
    (hparse : parse around.environment arguments = .ok invocation)
    (hcommand : invocation.command = some command)
    (hstarted : startedSession around invocation = .error failure) :
    run around arguments = refused (startSession around invocation).1 (.failure failure) := by
  rw [← startSession_snd] at hstarted
  simp only [run, hparse, runInvocation, hcommand, hstarted]

theorem run_changes (hparse : parse around.environment arguments = .ok invocation)
    (hcommand : invocation.command = some (.changes output noColor))
    (hstarted : startedSession around invocation = .ok session) :
    run around arguments =
      after (startSession around invocation).1 (listChanges around session output noColor) := by
  rw [← startSession_snd] at hstarted
  simp only [run, hparse, runInvocation, hcommand, hstarted]

theorem run_select (hparse : parse around.environment arguments = .ok invocation)
    (hcommand : invocation.command = some (.select tests given output noColor))
    (hstarted : startedSession around invocation = .ok session) :
    run around arguments =
      after (startSession around invocation).1
        (runSelect around session tests given output noColor) := by
  rw [← startSession_snd] at hstarted
  simp only [run, hparse, runInvocation, hcommand, hstarted]

theorem runSelect_of_failure {failure : Failure}
    (hgraph : (readGraph around session given).2 = .error failure) :
    runSelect around session tests given output noColor =
      refused (readGraph around session given).1 (.failure failure) := by
  simp only [runSelect, hgraph]

theorem runSelect_of_refusal {graph : ModuleGraph} {refusal : Refusal}
    (hgraph : (readGraph around session given).2 = .ok graph)
    (hcandidates : readCandidates (inputLines around.input around.inputFault) tests =
      .error refusal) :
    runSelect around session tests given output noColor =
      refused (readGraph around session given).1 refusal := by
  simp only [runSelect, hgraph, hcandidates]

theorem runSelect_of_candidates {graph : ModuleGraph} {candidates : List TestCandidate}
    (hgraph : (readGraph around session given).2 = .ok graph)
    (hcandidates : readCandidates (inputLines around.input around.inputFault) tests =
      .ok candidates) :
    runSelect around session tests given output noColor =
      after (readGraph around session given).1
        (selectTests around session graph candidates output noColor) := by
  simp only [runSelect, hgraph, hcandidates]

end Steps

/-- A command that meets with an obstacle is refused, whatever the repository would have
answered. -/
theorem run_of_obstructed (hparse : parse around.environment arguments = .ok invocation)
    (hcommand : invocation.command = some command)
    (h : Obstructed around invocation command obstacle) :
    ∃ notices refusal, refusal.exitCode = obstacle.exitCode ∧
      ∀ reader, run { around with reader := reader } arguments = refused notices refusal := by
  cases h with
  | start h =>
    obtain ⟨failure, hstarted, hcode⟩ := exists_failure_of_startless h
    refine ⟨(startSession around invocation).1, .failure failure, hcode, fun reader => ?_⟩
    exact run_of_failure hparse hcommand hstarted
  | @graph tests given output noColor session _ hsession h =>
    obtain ⟨failure, hgraph, hcode⟩ := exists_failure_of_graphless h
    refine ⟨(startSession around invocation).1 ++ (readGraph around session given).1,
      .failure failure, hcode, fun reader => ?_⟩
    have hselect : runSelect { around with reader := reader } session tests given output noColor =
        refused (readGraph around session given).1 (.failure failure) :=
      runSelect_of_failure hgraph
    rw [← after_refused, ← hselect]
    exact run_select hparse hcommand hsession
  | @candidates tests given output noColor session graph _ hsession hgraph h =>
    obtain ⟨refusal, hcandidates, hcode⟩ := exists_refusal_of_unidentified h
    refine ⟨(startSession around invocation).1 ++ (readGraph around session given).1, refusal,
      hcode, fun reader => ?_⟩
    have hselect : runSelect { around with reader := reader } session tests given output noColor =
        refused (readGraph around session given).1 refusal :=
      runSelect_of_refusal hgraph hcandidates
    rw [← after_refused, ← hselect]
    exact run_select hparse hcommand hsession

/-- A command that meets with no obstacle has all that it works with. -/
theorem exists_session_of_unobstructed
    (h : ∀ obstacle, ¬ Obstructed around invocation command obstacle) :
    ∃ session, startedSession around invocation = .ok session := by
  cases hstarted : startedSession around invocation with
  | ok session => exact ⟨session, rfl⟩
  | error failure =>
    obtain ⟨obstacle, hobstacle, _⟩ := exists_startless_of_error hstarted
    exact absurd (.start hobstacle) (h obstacle)

theorem exists_candidates_of_unobstructed
    (h : ∀ obstacle, ¬ Obstructed around invocation (.select tests given output noColor) obstacle) :
    ∃ session graph candidates, startedSession around invocation = .ok session ∧
      (readGraph around session given).2 = .ok graph ∧
      readCandidates (inputLines around.input around.inputFault) tests = .ok candidates := by
  obtain ⟨session, hsession⟩ := exists_session_of_unobstructed h
  cases hgraph : (readGraph around session given).2 with
  | error failure =>
    obtain ⟨obstacle, hobstacle, _⟩ := exists_graphless_of_error hgraph
    exact absurd (.graph hsession hobstacle) (h obstacle)
  | ok graph =>
    cases hcandidates : readCandidates (inputLines around.input around.inputFault) tests with
    | error refusal =>
      obtain ⟨obstacle, hobstacle, _⟩ := exists_unidentified_of_error hcandidates
      exact absurd (.candidates hsession hgraph hobstacle) (h obstacle)
    | ok candidates => exact ⟨session, graph, candidates, hsession, hgraph, rfl⟩

/-- What the source of a session reports when it is asked for the first time. -/
def detected (around : Surroundings) (session : Session) : FileReport :=
  (session.selector.source.report (around.reader session.selector.root) 0).value

theorem outcome_eq :
    (session.selector.outcome (around.reader session.selector.root) {}).value.1 =
      match detected around session with
      | .ok paths => .changes (session.selector.layout.changes paths)
      | .error error => .failed error :=
  Selector.detect_value session.selector (around.reader session.selector.root) 0

/-- To list changes fails, and prints nothing, exactly if they do not come to be known. -/
theorem listChanges_exitCode :
    (listChanges around session output noColor).exitCode =
      match detected around session with
      | .ok _ => .success
      | .error _ => .detectionFailed := by
  unfold listChanges
  simp only [outcome_eq]
  cases detected around session <;> rfl

theorem listChanges_output {error : DetectionError} (h : detected around session = .error error) :
    (listChanges around session output noColor).output = "" := by
  unfold listChanges
  simp only [outcome_eq, h]

/-- The lines that a command tells by itself, what it logs left out. -/
def told (notices : List Notice) : List String :=
  notices.filterMap fun
    | .told text => some text
    | .logged _ => none

/-- What is told about a key that has no meaning in a settings file. -/
def unrecognized (path key : String) : String :=
  "modgate: " ++ s!"warning: {path}: unrecognized field \x60{key}\x60 (ignored)"

/-- What is told about changes that are not known. -/
def detectionWarning (error : DetectionError) : String :=
  "modgate: " ++ s!"warning: change detection failed, running all tests: {error.message}"

theorem told_append (notices more : List Notice) :
    told (notices ++ more) = told notices ++ told more :=
  List.filterMap_append

theorem told_logged (log : List LogLine) : told (logged log) = [] := by
  simp [told, logged]

theorem told_warnings (found : FoundSettings) :
    told (warnings found) = found.unknown.map (unrecognized (found.path.getD "")) := by
  simp [told, warnings, announced, unrecognized]

/-- What is told about the settings that a command finds. -/
def settingsWarnings (around : Surroundings) (invocation : Invocation) : List String :=
  match foundSettings around invocation with
  | .error _ => []
  | .ok found => found.unknown.map (unrecognized (found.path.getD ""))

/-- While a session starts, nothing is told but keys without a meaning. -/
theorem told_startSession :
    told (startSession around invocation).1 = settingsWarnings around invocation := by
  unfold startSession settingsWarnings foundSettings
  cases hfound : (Session.findSettings around.files invocation
    (Session.rootOf invocation around.directory)).value with
  | error failure => simp [hfound, told_logged]
  | ok found => simp [hfound, told_append, told_logged, told_warnings]

theorem told_readGraph : told (readGraph around session given).1 = [] := by
  unfold readGraph
  split
  · rfl
  · split
    · split
      · rfl
      · exact told_logged _
    · rfl

section Selecting

variable (around : Surroundings) (session : Session) (graph : ModuleGraph)
  (candidates : List TestCandidate)

/-- The report of a selection. -/
def selectReport : SelectReport :=
  let decided :=
    session.selector.decideAll (around.reader session.selector.root) graph {} candidates
  session.selector.report decided.value.2 decided.value.1

theorem selectReport_tests :
    (selectReport around session graph candidates).tests = candidates.map fun candidate =>
      TestReport.of candidate.text
        (Crew.alone session.selector (around.reader session.selector.root) graph 0 candidate) :=
  congrArg Prod.fst (Crew.decideAll_untouched candidates)

/-- How often the source is asked while the candidates are decided about. -/
def attempts : Nat :=
  (session.selector.decideAll (around.reader session.selector.root) graph {}
    candidates).value.2.calls

theorem standing_eq :
    (session.selector.decideAll (around.reader session.selector.root) graph {} candidates).value.2 =
      if ∃ candidate ∈ candidates, Crew.Demanding graph candidate then
        Crew.Phase.detected.standing session.selector (around.reader session.selector.root) 0
      else {} :=
  congrArg Prod.snd (Crew.decideAll_untouched candidates)

theorem attempts_eq :
    attempts around session graph candidates =
      if ∃ candidate ∈ candidates, Crew.Demanding graph candidate then 1 else 0 := by
  rw [attempts, standing_eq]
  split <;> rfl

theorem selectReport_detectionError :
    (selectReport around session graph candidates).detectionError =
      if attempts around session graph candidates = 0 then none
      else
        match detected around session with
        | .ok _ => none
        | .error error => some error.message := by
  have herror : (selectReport around session graph candidates).detectionError =
      (session.selector.decideAll (around.reader session.selector.root) graph {}
        candidates).value.2.failure?.map (·.message) := rfl
  rw [herror, standing_eq, attempts_eq]
  split
  · rw [Crew.failure?_detected, Crew.found, Selector.detect_value, ← detected]
    cases detected around session <;> rfl
  · rfl

theorem selectReport_run {error : DetectionError} (h : detected around session = .error error)
    {test : TestReport} (htest : test ∈ (selectReport around session graph candidates).tests) :
    test.verdict = .run := by
  rw [selectReport_tests] at htest
  obtain ⟨candidate, _, rfl⟩ := List.mem_map.mp htest
  exact Crew.alone_run_of_error h candidate

theorem told_selectTests :
    told (selectTests around session graph candidates output noColor).notices =
      ((selectReport around session graph candidates).detectionError.toList.map fun error =>
        "modgate: " ++ s!"warning: change detection failed, running all tests: {error}") := by
  have hnotices : (selectTests around session graph candidates output noColor).notices =
      logged (session.selector.decideAll (around.reader session.selector.root) graph {}
        candidates).log ++
      (selectReport around session graph candidates).detectionError.toList.map fun error =>
        announced s!"warning: change detection failed, running all tests: {error}" := rfl
  rw [hnotices, told_append, told_logged]
  simp [told, announced]

end Selecting

/-- What comes of a selection that meets with no obstacle: a report on all candidates is printed, in
which every test runs when the source fails, and beside keys without a meaning nothing is told but
one warning, if the source has been asked and fails. -/
structure Selected (around : Surroundings) (invocation : Invocation) (session : Session)
    (graph : ModuleGraph) (candidates : List TestCandidate) (output : OutputFormat) (noColor : Bool)
    (result : CommandResult) : Prop where
  exitCode_eq : result.exitCode = .success
  exists_report : ∃ report : SelectReport,
    result.output = rendered around output noColor report.toJson report.spans ∧
      report.tests.map (·.test) = candidates.map (·.text) ∧
      ∀ error, detected around session = .error error → ∀ test ∈ report.tests, test.verdict = .run
  told_eq : told result.notices = settingsWarnings around invocation ++
    if attempts around session graph candidates = 0 then []
    else
      match detected around session with
      | .ok _ => []
      | .error error => [detectionWarning error]

theorem selected_run {graph : ModuleGraph} {candidates : List TestCandidate}
    (hparse : parse around.environment arguments = .ok invocation)
    (hcommand : invocation.command = some (.select tests given output noColor))
    (hsession : startedSession around invocation = .ok session)
    (hgraph : (readGraph around session given).2 = .ok graph)
    (hcandidates : readCandidates (inputLines around.input around.inputFault) tests =
      .ok candidates) :
    Selected around invocation session graph candidates output noColor
      (run around arguments) := by
  rw [run_select hparse hcommand hsession, runSelect_of_candidates hgraph hcandidates]
  refine ⟨rfl, ⟨selectReport around session graph candidates, rfl, ?_, ?_⟩, ?_⟩
  · simp [selectReport_tests, TestReport.of]
  · exact fun error herror test htest =>
      selectReport_run around session graph candidates herror htest
  · simp only [after, told_append, told_startSession, told_readGraph, told_selectTests,
      selectReport_detectionError]
    split
    · simp
    · cases detected around session <;> simp [detectionWarning]

theorem listed_of_error {error : DetectionError}
    (hparse : parse around.environment arguments = .ok invocation)
    (hcommand : invocation.command = some (.changes output noColor))
    (hsession : startedSession around invocation = .ok session)
    (herror : detected around session = .error error) :
    (run around arguments).exitCode = .detectionFailed ∧ (run around arguments).output = "" := by
  rw [run_changes hparse hcommand hsession]
  refine ⟨?_, listChanges_output herror⟩
  simp only [after, listChanges_exitCode, herror]

theorem listed_of_ok {paths : List String}
    (hparse : parse around.environment arguments = .ok invocation)
    (hcommand : invocation.command = some (.changes output noColor))
    (hsession : startedSession around invocation = .ok session)
    (hpaths : detected around session = .ok paths) :
    (run around arguments).exitCode = .success := by
  rw [run_changes hparse hcommand hsession]
  simp only [after, listChanges_exitCode, hpaths]

/-- A command ends early with what its obstacle stands for, prints nothing and has not come to ask
the repository. -/
theorem refused_of_obstructed (hparse : parse around.environment arguments = .ok invocation)
    (hcommand : invocation.command = some command)
    (h : Obstructed around invocation command obstacle) :
    (run around arguments).exitCode = obstacle.exitCode ∧ (run around arguments).output = "" ∧
      ∀ reader, run { around with reader := reader } arguments = run around arguments := by
  obtain ⟨notices, refusal, hcode, hrun⟩ := run_of_obstructed hparse hcommand h
  have hself : run around arguments = refused notices refusal := hrun around.reader
  refine ⟨?_, ?_, fun reader => (hrun reader).trans hself.symm⟩
  · rw [hself]
    exact hcode
  · rw [hself]
    rfl

theorem carriedOut_of_unobstructed (hparse : parse around.environment arguments = .ok invocation)
    (hcommand : invocation.command = some command)
    (h : ∀ obstacle, ¬ Obstructed around invocation command obstacle) :
    (run around arguments).exitCode = .success ∨
      ∃ output noColor, command = .changes output noColor ∧ ∃ session error,
        startedSession around invocation = .ok session ∧
          detected around session = .error error := by
  cases command with
  | changes output noColor =>
    obtain ⟨session, hsession⟩ := exists_session_of_unobstructed h
    cases hdetected : detected around session with
    | ok paths => exact Or.inl (listed_of_ok hparse hcommand hsession hdetected)
    | error error =>
      exact Or.inr ⟨output, noColor, rfl, session, error, hsession, hdetected⟩
  | select tests given output noColor =>
    obtain ⟨session, graph, candidates, hsession, hgraph, hcandidates⟩ :=
      exists_candidates_of_unobstructed h
    exact Or.inl (selected_run hparse hcommand hsession hgraph hcandidates).exitCode_eq

/-- A command fails for want of the changes only if it lists them, and if its session has started
and the source has failed. -/
theorem detectionFailed_cases (hparse : parse around.environment arguments = .ok invocation)
    (hcommand : invocation.command = some command)
    (hcode : (run around arguments).exitCode = .detectionFailed) :
    ∃ output noColor, command = .changes output noColor ∧ ∃ session error,
      startedSession around invocation = .ok session ∧ detected around session = .error error := by
  have hclear (obstacle : Obstacle) : ¬ Obstructed around invocation command obstacle := by
    intro hobstructed
    have hother := (refused_of_obstructed hparse hcommand hobstructed).1
    rw [hcode] at hother
    cases obstacle <;> cases hother
  refine (carriedOut_of_unobstructed hparse hcommand hclear).resolve_left fun hsuccess => ?_
  rw [hcode] at hsuccess
  cases hsuccess

/-- A command that meets with an obstacle ends with its exit code, prints nothing and never comes to
ask the repository, and these exit codes come of nothing else. To list changes fails, and prints
nothing, exactly if the session has started and its source fails. To select tests never fails so. -/
theorem exit_codes (hparse : parse around.environment arguments = .ok invocation)
    (hcommand : invocation.command = some command) :
    (∀ obstacle, Obstructed around invocation command obstacle →
      (run around arguments).exitCode = obstacle.exitCode ∧ (run around arguments).output = "" ∧
        ∀ reader, run { around with reader := reader } arguments = run around arguments) ∧
    ((run around arguments).exitCode = .invalidInput ∨
      (run around arguments).exitCode = .internalError →
        ∃ obstacle, Obstructed around invocation command obstacle) ∧
    (∀ output noColor, command = .changes output noColor →
      ((run around arguments).exitCode = .detectionFailed ↔ ∃ session error,
        startedSession around invocation = .ok session ∧
          detected around session = .error error) ∧
      ((run around arguments).exitCode = .detectionFailed → (run around arguments).output = "")) ∧
    ∀ tests given output noColor, command = .select tests given output noColor →
      (run around arguments).exitCode ≠ .detectionFailed ∧
        ∀ session graph candidates, startedSession around invocation = .ok session →
          (readGraph around session given).2 = .ok graph →
          readCandidates (inputLines around.input around.inputFault) tests = .ok candidates →
            Selected around invocation session graph candidates output noColor
              (run around arguments) := by
  refine ⟨fun obstacle => refused_of_obstructed hparse hcommand, fun hcode => ?_, ?_, ?_⟩
  · by_contra hclear
    rw [not_exists] at hclear
    rcases carriedOut_of_unobstructed hparse hcommand hclear with hsuccess |
      ⟨output, noColor, rfl, session, error, hsession, herror⟩
    · rw [hsuccess] at hcode
      rcases hcode with hcode | hcode <;> cases hcode
    · rw [(listed_of_error hparse hcommand hsession herror).1] at hcode
      rcases hcode with hcode | hcode <;> cases hcode
  · rintro output noColor rfl
    refine ⟨⟨fun hcode => ?_, ?_⟩, fun hcode => ?_⟩
    · obtain ⟨_, _, _, hfailed⟩ := detectionFailed_cases hparse hcommand hcode
      exact hfailed
    · rintro ⟨session, error, hsession, herror⟩
      exact (listed_of_error hparse hcommand hsession herror).1
    · obtain ⟨_, _, _, session, error, hsession, herror⟩ :=
        detectionFailed_cases hparse hcommand hcode
      exact (listed_of_error hparse hcommand hsession herror).2
  · rintro tests given output noColor rfl
    refine ⟨fun hcode => ?_, fun session graph candidates => selected_run hparse hcommand⟩
    obtain ⟨_, _, hcommand', _⟩ := detectionFailed_cases hparse hcommand hcode
    cases hcommand'

end

/-!
A directory with the declarations of a shop, which no repository surrounds.
-/

namespace StrayShop

def declarations : String := "[[modules]]\nname = \"shop\"\npackages = [\"shop\"]\n"

def surroundings : Surroundings where
  environment := []
  files := { nodes := [([Text.bytes "graph.toml"], .file declarations.toUTF8 false)] }
  input := []
  reader _ _ := Logged.pure (.error (.repository "no repository"))

def session : Session := ⟨"/", none, {}, ⟨"/", .repository .unpushed, .default⟩⟩

def graph : ModuleGraph := ⟨[⟨"shop", ["shop"], [], []⟩]⟩

theorem readGraph_declarations :
    (readGraph surroundings session (some "graph.toml")).2 = .ok graph := by
  have hpath : graphPath? surroundings session (some "graph.toml") = some "/graph.toml" := by cbv
  have hfile : surroundings.files.isFile "/graph.toml" := by cbv
  have hread : surroundings.files.readText "/graph.toml" = .ok declarations := by cbv
  have hextension : Path.extension? "/graph.toml" = some "toml" := rfl
  have hformat : GraphFormat.ofPath "/graph.toml" = .toml := by
    simp [GraphFormat.ofPath, hextension]
  have hparse : ModuleGraph.parse .toml declarations = .ok graph := by cbv
  rw [readGraph_of_path hpath hfile]
  simp only [ModuleGraph.load, hread, hformat, hparse]

/-- A command that is given without any options before it. -/
def plainly (command : Command) : Invocation := ⟨none, none, none, none, some command⟩

def listing : Command := .changes .text false

def selecting (given : Option String) : Command := .select ["shop.Till"] given .text false

/-- To list the changes fails, to select without a graph is refused, and with the graph the test
runs under a warning. -/
theorem exit_codes_in_shop :
    (run surroundings ["changes"]).exitCode = .detectionFailed ∧
      (run surroundings ["changes"]).output = "" ∧
      (run surroundings ["select", "shop.Till"]).exitCode = .invalidInput ∧
      Selected surroundings (plainly (selecting (some "graph.toml"))) session graph
        [⟨"shop.Till", none⟩] .text false
        (run surroundings ["select", "--graph", "graph.toml", "shop.Till"]) := by
  have hlisting : parse surroundings.environment ["changes"] = .ok (plainly listing) := rfl
  have hungiven : parse surroundings.environment ["select", "shop.Till"] =
      .ok (plainly (selecting none)) := rfl
  have hgiven : parse surroundings.environment ["select", "--graph", "graph.toml", "shop.Till"] =
      .ok (plainly (selecting (some "graph.toml"))) := rfl
  have hsession (command : Command) :
      startedSession surroundings (plainly command) = .ok session := by
    cbv
  have hcandidates : readCandidates (inputLines surroundings.input surroundings.inputFault)
      ["shop.Till"] = .ok [⟨"shop.Till", none⟩] := by
    decide
  have hfailed : detected surroundings session = .error (.repository "no repository") := rfl
  have hlisted := (exit_codes hlisting rfl).2.2.1 .text false rfl
  have hcode := hlisted.1.mpr ⟨session, _, hsession _, hfailed⟩
  have hrefused := (exit_codes hungiven rfl).1 .missingGraph
    (.graph (hsession _) (.unnamed rfl))
  have hselected := ((exit_codes hgiven rfl).2.2.2 _ _ _ _ rfl).2 session graph _
    (hsession _) readGraph_declarations hcandidates
  exact ⟨hcode, hlisted.2 hcode, hrefused.1, hselected⟩

end StrayShop

end TestSelection.CommandLine
