import TestSelection.Decision

/-!
What became of asking for the changed files: a set of changes, or the reason why there is none.
A failed detection is no evidence, so every test runs after it.
-/

namespace TestSelection

/-- Why the changed files could not be found. -/
inductive DetectionError
  | repositoryUnavailable (path cause : String)
  | unresolvableRevision (revision cause : String)
  | repository (cause : String)
  | source (name message : String)
  deriving Repr, DecidableEq

def DetectionError.message : DetectionError → String
  | repositoryUnavailable path cause => s!"no git repository at {path}: {cause}"
  | unresolvableRevision revision cause => s!"unable to resolve revision `{revision}`: {cause}"
  | repository cause => s!"git error: {cause}"
  | source name message => s!"{name}: {message}"

inductive DetectionOutcome
  | changes (set : ChangeSet)
  | failed (error : DetectionError)
  deriving DecidableEq

namespace DetectionOutcome

def changes? : DetectionOutcome → Option ChangeSet
  | changes set => some set
  | failed _ => none

def error? : DetectionOutcome → Option DetectionError
  | changes _ => none
  | failed error => some error

end DetectionOutcome

/-- The decision for the tests of the module `name` once detection has come to an end. -/
def ModuleGraph.decide (graph : ModuleGraph) (name : String) : DetectionOutcome → Decision
  | .changes set => graph.shouldRun name set
  | .failed _ => ⟨.run, .detectionFailed⟩

end TestSelection
