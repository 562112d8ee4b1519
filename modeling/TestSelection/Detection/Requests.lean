import TestSelection.Detection.Selector

/-!
A selector at work for many runs. Requests come one after the other; each is made for one run and
brings the module graph to decide by.
-/

namespace TestSelection

structure SelectionRequest where
  run : Nat
  graph : ModuleGraph
  step : SelectionStep

namespace SelectionRuns

/-- Answers a request. -/
def answer (selector : Selector) (read : BaselineReader) (runs : SelectionRuns)
    (request : SelectionRequest) : Logged (SelectionAnswer × SelectionRuns) :=
  runs.step selector read request.graph request.run request.step

/-- Answers requests one after the other. -/
def serve (selector : Selector) (read : BaselineReader) :
    SelectionRuns → List SelectionRequest → Logged (List SelectionAnswer × SelectionRuns)
  | runs, [] => Logged.pure ([], runs)
  | runs, request :: rest =>
    (runs.answer selector read request).bind fun (answer, after) =>
      (serve selector read after rest).bind fun (answers, last) =>
        Logged.pure (answer :: answers, last)

end SelectionRuns

end TestSelection
