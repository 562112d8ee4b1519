import TestSelection.Detection.Outcome
import TestSelection.Log

/-!
Change sources: who is asked for the changed files. The repository answers for a baseline; any
other source has a name, a description and an answer for each time it is asked.
-/

namespace TestSelection

/-- What files are compared with: the last commit, the tracked branch, or a revision. -/
inductive Baseline
  | uncommitted
  | unpushed
  | revision (text : String)
  deriving Repr, DecidableEq

namespace Baseline

def name : Baseline → String
  | uncommitted => "uncommitted"
  | unpushed => "unpushed"
  | revision _ => "diff"

def description : Baseline → String
  | uncommitted => "uncommitted changes"
  | unpushed => "unpushed changes"
  | revision text => s!"diff to {text}"

end Baseline

/-- The paths of the changed files, or why they are not known. -/
abbrev FileReport := Except DetectionError (List String)

/-- The answer for a baseline, with what is logged while finding it. -/
abbrev BaselineReader := Baseline → Logged FileReport

inductive ChangeSource
  | repository (baseline : Baseline)
  | custom (name description : String) (reports : Nat → FileReport)

namespace ChangeSource

def name : ChangeSource → String
  | repository baseline => baseline.name
  | custom name _ _ => name

def description : ChangeSource → String
  | repository baseline => baseline.description
  | custom _ description _ => description

/-- The changed files as the source reports them when it is asked after `calls` earlier times,
each path once and in ascending order. -/
def report (read : BaselineReader) (calls : Nat) : ChangeSource → Logged FileReport
  | repository baseline => read baseline
  | custom _ _ reports => Logged.pure ((reports calls).map Ascending.ofList)

end ChangeSource

end TestSelection
