import TestSelection.Candidate
import TestSelection.Change.Layout
import TestSelection.Detection.Cache
import TestSelection.Detection.Source
import TestSelection.Text.Quoted

/-!
Deciding about candidates. A selector reads changes from one source with one layout. It asks the
source at most once per run, the first time a candidate needs to know, and keeps the outcome in
the cache of that run, failure or not. A method and a class outside all modules need no outcome.
-/

namespace TestSelection

structure Selector where
  root : String
  source : ChangeSource
  layout : SourceLayout

namespace Selector

def text (selector : Selector) : String :=
  let layout := selector.layout
  "SelectionExtension \x7b repo_root: " ++ Text.quoted selector.root ++ ", source: " ++
    Text.quoted selector.source.description ++ ", layout: SourceLayout \x7b main_marker: " ++
    Text.quotedList layout.mainMarker ++ ", test_marker: " ++ Text.quotedList layout.testMarker ++
    ", suffix: " ++ Text.quoted layout.suffix ++ " \x7d \x7d"

/-- The outcome of asking the source once more, after `calls` earlier times. -/
def detect (selector : Selector) (read : BaselineReader) (calls : Nat) :
    Logged DetectionOutcome :=
  (selector.source.report read calls).bind fun
    | .ok paths =>
      let set := selector.layout.changes paths
      let told := s!"{selector.source.description}: {set.size} changes from {paths.length} paths"
      ⟨.changes set, [⟨.selector, .debug, told⟩]⟩
    | .error error =>
      let told := s!"change detection failed ({selector.source.description}), " ++
        s!"running all tests: {error.message}"
      ⟨.failed error, [⟨.selector, .error, told⟩]⟩

/-- How often the source has been asked, and the cache of a run. -/
structure Standing where
  calls : Nat := 0
  cache : DetectionCache := {}

/-- The outcome of a run. The source is asked if the run has none yet. -/
def outcome (selector : Selector) (read : BaselineReader) (standing : Standing) :
    Logged (DetectionOutcome × Standing) :=
  match standing.cache.get? changesKey with
  | some (_, known) => Logged.pure (known, standing)
  | none =>
    let started := standing.cache.start changesKey
    (selector.detect read standing.calls).bind fun found =>
      Logged.pure
        (found, ⟨standing.calls + 1, started.store standing.cache.computations found⟩)

/-- The module whose verdict a candidate shares, if the candidate is a class with one. -/
def module? (graph : ModuleGraph) (candidate : TestCandidate) : Option String :=
  if candidate.method.isSome then none else graph.moduleForPackage candidate.package

/-- The decision for a candidate that shares no module's verdict. -/
def unlocated (candidate : TestCandidate) : Decision :=
  if candidate.method.isSome then ⟨.run, .methodOfEnabledClass⟩ else ⟨.run, .noModule⟩

def noteDecision (candidate : TestCandidate) (decision : Decision) : LogLine :=
  ⟨.selector, .trace, s!"{candidate.text}: {decision.verdict.label} ({decision.reason.message})"⟩

def evaluate (selector : Selector) (read : BaselineReader) (graph : ModuleGraph)
    (standing : Standing) (candidate : TestCandidate) : Logged (Decision × Standing) :=
  match module? graph candidate with
  | none => ⟨(unlocated candidate, standing), [noteDecision candidate (unlocated candidate)]⟩
  | some name =>
    (selector.outcome read standing).bind fun (found, after) =>
      ⟨(graph.decide name found, after), [noteDecision candidate (graph.decide name found)]⟩

end Selector

/-- One request to a selector that serves several runs. -/
inductive SelectionStep
  | evaluate (candidate : TestCandidate)
  | outcome
  | peek

/-- What a request is answered with. -/
inductive SelectionAnswer
  | decision (decision : Decision)
  | outcome (outcome : DetectionOutcome)
  | stored (outcome : Option DetectionOutcome)

/-- The calls of the source so far, and the cache of every run that was ever named. -/
structure SelectionRuns where
  calls : Nat := 0
  caches : List (Nat × DetectionCache) := []

namespace SelectionRuns

def cache (runs : SelectionRuns) (run : Nat) : DetectionCache :=
  (runs.caches.lookup run).getD {}

def standing (runs : SelectionRuns) (run : Nat) : Selector.Standing := ⟨runs.calls, runs.cache run⟩

/-- The runs after one of them has come to a new standing. -/
def record (runs : SelectionRuns) (run : Nat) (standing : Selector.Standing) : SelectionRuns :=
  ⟨standing.calls, (run, standing.cache) :: runs.caches.filter fun entry => entry.1 ≠ run⟩

def step (selector : Selector) (read : BaselineReader) (graph : ModuleGraph) (runs : SelectionRuns)
    (run : Nat) : SelectionStep → Logged (SelectionAnswer × SelectionRuns)
  | .evaluate candidate =>
    (selector.evaluate read graph (runs.standing run) candidate).bind fun (decision, after) =>
      Logged.pure (.decision decision, runs.record run after)
  | .outcome =>
    (selector.outcome read (runs.standing run)).bind fun (found, after) =>
      Logged.pure (.outcome found, runs.record run after)
  | .peek => Logged.pure (.stored (((runs.cache run).get? changesKey).map (·.2)), runs)

end SelectionRuns

end TestSelection
