import TestSelection.Change.Basic
import TestSelection.Module.Reachable

/-!
Run or skip. A module's tests run when the module itself, or one that it reaches, owns a changed
compilation unit. They also run when nothing is known to have changed, when no compilation unit
has, and when the changes could not be detected: only evidence of changes elsewhere skips a test.
-/

namespace TestSelection

inductive Verdict
  | run
  | skip
  deriving Repr, DecidableEq

namespace Verdict

def label : Verdict → String
  | run => "RUN"
  | skip => "SKIP"

def word : Verdict → String
  | run => "run"
  | skip => "skip"

end Verdict

/-- Why a verdict was given. -/
inductive Reason
  | noChanges
  | noUnitChanges
  | changesIn (name : String)
  | changesInDependency (dependency name : String)
  | noChangesIn (name : String)
  | detectionFailed
  | methodOfEnabledClass
  | noModule
  deriving Repr, DecidableEq

def Reason.message : Reason → String
  | noChanges => "no changes detected"
  | noUnitChanges => "no compilation-unit changes detected"
  | changesIn name => s!"changes in module `{name}`"
  | changesInDependency dependency name =>
    s!"changes in dependency `{dependency}` of module `{name}`"
  | noChangesIn name => s!"no changes in module `{name}` or its dependencies"
  | detectionFailed => "change detection failed"
  | methodOfEnabledClass => "method of an enabled test class"
  | noModule => "unable to locate module"

structure Decision where
  verdict : Verdict
  reason : Reason
  deriving Repr, DecidableEq

namespace Decision

def isRun (decision : Decision) : Bool := decision.verdict = .run

end Decision

namespace ModuleGraph

/-- Whether the module `name` owns one of the changed compilation units. -/
def hasChanges (graph : ModuleGraph) (changes : ChangeSet) (name : String) : Bool :=
  changes.entities.any fun identity => graph.containsEntity name identity

/-- The decision for the tests of `name`. When several dependencies have changes, the reason names
the first of them. -/
def shouldRun (graph : ModuleGraph) (name : String) (changes : ChangeSet) : Decision :=
  if changes.isEmpty then ⟨.run, .noChanges⟩
  else if changes.entities.isEmpty then ⟨.run, .noUnitChanges⟩
  else if graph.hasChanges changes name then ⟨.run, .changesIn name⟩
  else
    match ((graph.reachable name).filter (· ≠ name)).find? (graph.hasChanges changes) with
    | some dependency => ⟨.run, .changesInDependency dependency name⟩
    | none => ⟨.skip, .noChangesIn name⟩

end ModuleGraph

end TestSelection
