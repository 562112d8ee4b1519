import TestSelection.Report.Basic

/-!
What is written for a reader, piece by piece: a listing of changes, the verdict about a test or the
counts of a selection. Each writing has lines of its own, made of fixed words, of numbers and of the
texts that it passes on.
-/

namespace TestSelection

/-- The line about a test, without its end. -/
def TestReport.line (report : TestReport) : String :=
  Text.padRight 4 report.verdict.label ++ " " ++ report.test ++ ": " ++ report.reason

/-- The line about a change, without its end. -/
def Change.line (change : Change) : String :=
  Text.padRight 6 change.label ++ " " ++ change.name

/-- The line with the counts, without its end. -/
def Summary.line (counts : Summary) : String :=
  let noun := if counts.total = 1 then "test" else "tests"
  s!"{counts.total} {noun}: {counts.run} run, {counts.skip} skipped"

/-- What a formatter is asked to write. -/
inductive Writing
  | changes (set : ChangeSet)
  | test (report : TestReport)
  | summary (counts : Summary)

namespace Writing

def spans : Writing → List Span
  | changes set => set.spans
  | test report => report.spans
  | summary counts => counts.spans

def lines : Writing → List String
  | changes set => if set.isEmpty then ["no changes"] else set.toList.map Change.line
  | test report => [report.line]
  | summary counts => [counts.line]

/-- The texts that are passed on. -/
def texts : Writing → List String
  | changes set => set.toList.map Change.name
  | test report => [report.test, report.reason]
  | summary _ => []

/-- The words that lines are made of beside numbers and the texts that are passed on. -/
def words : List String :=
  ["RUN ", "SKIP", " ", ": ", "source", "test  ", "file  ", "no changes", "test", "tests", " run, ",
    " skipped"]

/-- A character that no number and none of the words has. -/
def IsForeign (c : Char) : Prop := c.isDigit = false ∧ ∀ word ∈ words, c ∉ word.toList

instance (c : Char) : Decidable (IsForeign c) := inferInstanceAs (Decidable (_ ∧ _))

end Writing

end TestSelection
