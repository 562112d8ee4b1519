import TestSelection.Decision
import TestSelection.Report.Json
import TestSelection.Report.Styled
import TestSelection.Text.Pieces

/-!
Reports of changes and of verdicts. Each can be written as lines of text, where verdicts and names
are styled, and as a JSON object.
-/

namespace TestSelection

structure TestReport where
  test : String
  verdict : Verdict
  reason : String
  deriving Repr, DecidableEq

structure Summary where
  total : Nat
  run : Nat
  skip : Nat
  deriving Repr, DecidableEq

structure SelectReport where
  source : String
  tests : List TestReport
  detectionError : Option String
  deriving Repr, DecidableEq

structure ChangesReport where
  source : String
  changes : ChangeSet
  deriving DecidableEq

def Verdict.style : Verdict → Style
  | run => .runVerdict
  | skip => .skipVerdict

namespace TestReport

/-- The report of a candidate, written as `test`, that was decided on. -/
def of (test : String) (decision : Decision) : TestReport :=
  ⟨test, decision.verdict, decision.reason.message⟩

def spans (report : TestReport) : List Span :=
  [styled report.verdict.style (Text.padRight 4 report.verdict.label), plain " ",
    styled .testName report.test, plain ": ", styled .reason report.reason, plain "\n"]

def toJson (report : TestReport) : Json :=
  .object [("test", .text report.test), ("verdict", .text report.verdict.word),
    ("reason", .text report.reason)]

end TestReport

namespace Summary

def spans (summary : Summary) : List Span :=
  let noun := if summary.total = 1 then "test" else "tests"
  [plain s!"{summary.total} {noun}: {summary.run} run, {summary.skip} skipped\n"]

def toJson (summary : Summary) : Json :=
  .object [("total", .number summary.total), ("run", .number summary.run),
    ("skip", .number summary.skip)]

end Summary

namespace SelectReport

def summary (report : SelectReport) : Summary :=
  let run := report.tests.countP fun test => test.verdict = .run
  ⟨report.tests.length, run, report.tests.length - run⟩

def spans (report : SelectReport) : List Span :=
  report.tests.flatMap TestReport.spans ++ report.summary.spans

def toJson (report : SelectReport) : Json :=
  .object ([("source", .text report.source), ("tests", .list (report.tests.map TestReport.toJson)),
    ("summary", report.summary.toJson)] ++
    match report.detectionError with
    | none => []
    | some error => [("detection_error", .text error)])

end SelectReport

def Change.kindWord : Change → String
  | compilationUnit _ => "compilation_unit"
  | testCompilationUnit _ => "test_compilation_unit"
  | otherFile _ => "other_file"

def Change.toJson (change : Change) : Json :=
  .object [("kind", .text change.kindWord), ("name", .text change.name)]

def Change.spans (change : Change) : List Span :=
  [plain (Text.padRight 6 change.label ++ " "), styled .changedName change.name, plain "\n"]

def ChangeSet.spans (set : ChangeSet) : List Span :=
  if set.isEmpty then [plain "no changes\n"] else set.toList.flatMap Change.spans

namespace ChangesReport

def toJson (report : ChangesReport) : Json :=
  .object [("source", .text report.source),
    ("changes", .list (report.changes.toList.map Change.toJson))]

end ChangesReport

end TestSelection
