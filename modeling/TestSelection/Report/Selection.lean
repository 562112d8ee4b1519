import TestSelection.Detection.Selector
import TestSelection.Report.Basic

/-!
The report of a selection: what was decided about each candidate, in the order of the candidates,
and why the changes are not known, if they are not. Nothing about a failed detection is reported
unless a candidate asked for it.
-/

namespace TestSelection.Selector

/-- Why the detection of a run failed, if it has been tried and has failed. -/
def Standing.failure? (standing : Standing) : Option DetectionError :=
  (standing.cache.get? changesKey).bind fun found => found.2.error?

/-- The report of a run that has come to an end with the given standing. -/
def report (selector : Selector) (standing : Standing) (tests : List TestReport) : SelectReport :=
  ⟨selector.source.description, tests, standing.failure?.map (·.message)⟩

/-- Decides about candidates one after the other. -/
def decideAll (selector : Selector) (read : BaselineReader) (graph : ModuleGraph) :
    Standing → List TestCandidate → Logged (List TestReport × Standing)
  | standing, [] => Logged.pure ([], standing)
  | standing, candidate :: rest =>
    (selector.evaluate read graph standing candidate).bind fun (decision, after) =>
      (decideAll selector read graph after rest).bind fun (reports, last) =>
        Logged.pure (TestReport.of candidate.text decision :: reports, last)

end TestSelection.Selector
