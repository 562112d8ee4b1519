import TestSelection.Document.Json
import TestSelection.Report.Basic

/-!
Reports as they are printed. The counts of a printed selection are data of their own, words of 64
bits; those of a selection that was run are made from its tests.
-/

namespace TestSelection

/-- The counts are words of 64 bits. -/
def Summary.InWords (summary : Summary) : Prop :=
  summary.total ≤ JsonText.maxWord ∧ summary.run ≤ JsonText.maxWord ∧
    summary.skip ≤ JsonText.maxWord

instance (summary : Summary) : Decidable summary.InWords :=
  inferInstanceAs (Decidable (_ ∧ _ ∧ _))

/-- A selection with its counts. -/
structure CountedReport where
  source : String
  tests : List TestReport
  summary : Summary
  detectionError : Option String
  inWords : summary.InWords
  deriving DecidableEq

def CountedReport.toJson (report : CountedReport) : Json :=
  .object ([("source", .text report.source), ("tests", .list (report.tests.map TestReport.toJson)),
    ("summary", report.summary.toJson)] ++
    match report.detectionError with
    | none => []
    | some error => [("detection_error", .text error)])

namespace SelectReport

theorem summary_inWords {report : SelectReport} (h : report.tests.length ≤ JsonText.maxWord) :
    report.summary.InWords :=
  ⟨h, Nat.le_trans List.countP_le_length h, Nat.le_trans (Nat.sub_le _ _) h⟩

/-- A selection that was run, with the counts made from its tests. -/
def counted (report : SelectReport) (h : report.tests.length ≤ JsonText.maxWord) : CountedReport :=
  ⟨report.source, report.tests, report.summary, report.detectionError, summary_inWords h⟩

theorem toJson_counted (report : SelectReport) (h : report.tests.length ≤ JsonText.maxWord) :
    (report.counted h).toJson = report.toJson :=
  rfl

end SelectReport

/-- What is printed as a JSON document. -/
inductive Printout
  | selection (report : CountedReport)
  | listing (report : ChangesReport)
  deriving DecidableEq

namespace Printout

def toJson : Printout → Json
  | selection report => report.toJson
  | listing report => report.toJson

def printed (printout : Printout) : String := printout.toJson.document

end Printout

end TestSelection
