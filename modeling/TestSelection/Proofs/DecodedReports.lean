import TestSelection.Proofs.JsonTexts
import TestSelection.Report.Counted

/-!
Reports read back from what is printed. A printed report is read as one table whose fields are the
parts of the report, each test and each change being a table of its own. Looking the fields up gives
the report again, so a printed text belongs to one report only.
-/

namespace TestSelection

namespace Tree

variable {α : Type}

/-- What is decoded from the field of a given name. -/
def decodeField? (name : String) (decode : Tree → Option α) (tree : Tree) : Option α :=
  (tree.fields.lookup name).bind decode

def count? : Tree → Option Nat
  | .scalar ⟨_, _, .integer value⟩ => value.toNat?
  | _ => none

def items? (decode : Tree → Option α) : Tree → Option (List α)
  | .sequence items true => items.mapM decode
  | _ => none

variable {decode : Tree → Option α}

@[simp] theorem text?_ofText (content : String) : (ofText content).text? = some content := rfl

@[simp] theorem count?_ofCount (count : Nat) : (ofCount count).count? = some count := rfl

theorem items?_sequence {encode : α → Tree} (h : ∀ x, decode (encode x) = some x) (xs : List α) :
    items? decode (.sequence (xs.map encode) true) = some xs := by
  have hitems : (xs.map encode).mapM decode = some xs := by
    induction xs with
    | nil => rfl
    | cons x rest ih =>
      rw [List.map_cons, List.mapM_cons, h, ih]
      rfl
  exact hitems

end Tree

/-! ### The parts of a report -/

def Verdict.ofWord? (word : String) : Option Verdict :=
  [Verdict.run, .skip].find? fun verdict => verdict.word = word

theorem Verdict.ofWord?_word (verdict : Verdict) : ofWord? verdict.word = some verdict := by
  cases verdict <;> decide

namespace TestReport

/-- A test as one flat table. -/
def tree (report : TestReport) : Tree :=
  .table [("test", .ofText report.test), ("verdict", .ofText report.verdict.word),
    ("reason", .ofText report.reason)]

def ofTree? (tree : Tree) : Option TestReport := do
  let test ← tree.decodeField? "test" Tree.text?
  let word ← tree.decodeField? "verdict" Tree.text?
  let verdict ← Verdict.ofWord? word
  let reason ← tree.decodeField? "reason" Tree.text?
  return ⟨test, verdict, reason⟩

theorem ofTree?_tree (report : TestReport) : ofTree? report.tree = some report := by
  simp [ofTree?, tree, Tree.decodeField?, List.lookup_cons, Verdict.ofWord?_word]

theorem tree_toJson (report : TestReport) : report.toJson.tree = report.tree := Json.tree_object _

theorem inWords_toJson (report : TestReport) : report.toJson.InWords := by
  refine .object ?_
  simp only [List.forall_mem_cons]
  exact ⟨.text _, .text _, .text _, nofun⟩

end TestReport

namespace Summary

def tree (summary : Summary) : Tree :=
  .table [("total", .ofCount summary.total), ("run", .ofCount summary.run),
    ("skip", .ofCount summary.skip)]

def ofTree? (tree : Tree) : Option Summary := do
  let total ← tree.decodeField? "total" Tree.count?
  let run ← tree.decodeField? "run" Tree.count?
  let skip ← tree.decodeField? "skip" Tree.count?
  return ⟨total, run, skip⟩

theorem ofTree?_tree (summary : Summary) : ofTree? summary.tree = some summary := by
  simp [ofTree?, tree, Tree.decodeField?, List.lookup_cons]

theorem tree_toJson (summary : Summary) : summary.toJson.tree = summary.tree := Json.tree_object _

theorem inWords_toJson {summary : Summary} (h : summary.InWords) : summary.toJson.InWords := by
  refine .object ?_
  simp only [List.forall_mem_cons]
  exact ⟨.number h.1, .number h.2.1, .number h.2.2, nofun⟩

end Summary

namespace Change

/-- A change as a table of its kind and its name. -/
def tree (change : Change) : Tree :=
  .table [("kind", .ofText change.kindWord), ("name", .ofText change.name)]

def ofKind? (kind name : String) : Option Change :=
  [compilationUnit name, testCompilationUnit name, otherFile name].find? fun change =>
    change.kindWord = kind

theorem ofKind?_kindWord (change : Change) : ofKind? change.kindWord change.name = some change := by
  cases change <;> simp [ofKind?, kindWord, name]

def ofTree? (tree : Tree) : Option Change := do
  let kind ← tree.decodeField? "kind" Tree.text?
  let name ← tree.decodeField? "name" Tree.text?
  ofKind? kind name

theorem ofTree?_tree (change : Change) : ofTree? change.tree = some change := by
  simp [ofTree?, tree, Tree.decodeField?, List.lookup_cons, ofKind?_kindWord]

theorem tree_toJson (change : Change) : change.toJson.tree = change.tree := Json.tree_object _

theorem inWords_toJson (change : Change) : change.toJson.InWords := by
  refine .object ?_
  simp only [List.forall_mem_cons]
  exact ⟨.text _, .text _, nofun⟩

end Change

namespace CountedReport

/-- The error of a detection has a field only if there is one. -/
def tree (report : CountedReport) : Tree :=
  .table ([("source", .ofText report.source),
    ("tests", .sequence (report.tests.map TestReport.tree) true),
    ("summary", report.summary.tree)] ++
    report.detectionError.toList.map fun error => ("detection_error", .ofText error))

def ofTree? (tree : Tree) : Option CountedReport := do
  let source ← tree.decodeField? "source" Tree.text?
  let tests ← tree.decodeField? "tests" (Tree.items? TestReport.ofTree?)
  let summary ← tree.decodeField? "summary" Summary.ofTree?
  let error := tree.decodeField? "detection_error" Tree.text?
  if h : summary.InWords then some ⟨source, tests, summary, error, h⟩ else none

theorem ofTree?_tree (report : CountedReport) : ofTree? report.tree = some report := by
  have htests := Tree.items?_sequence TestReport.ofTree?_tree report.tests
  obtain ⟨source, tests, summary, error, h⟩ := report
  cases error <;>
    simp [ofTree?, tree, Tree.decodeField?, List.lookup_cons, htests, Summary.ofTree?_tree, h]

theorem tree_toJson (report : CountedReport) : report.toJson.tree = report.tree := by
  have htests := Json.tree_list_map TestReport.tree_toJson report.tests
  rw [toJson, Json.tree_object, tree]
  cases report.detectionError <;>
    simp [htests, Summary.tree_toJson, Json.tree_text]

theorem inWords_toJson (report : CountedReport) : report.toJson.InWords := by
  have htests : (Json.list (report.tests.map TestReport.toJson)).InWords :=
    .list (List.forall_mem_map.mpr fun test _ => test.inWords_toJson)
  refine .object ?_
  cases report.detectionError <;> simp only [List.forall_mem_append, List.forall_mem_cons]
  · exact ⟨⟨.text _, htests, Summary.inWords_toJson report.inWords, nofun⟩, nofun⟩
  · exact ⟨⟨.text _, htests, Summary.inWords_toJson report.inWords, nofun⟩, .text _, nofun⟩

end CountedReport

namespace ChangesReport

def tree (report : ChangesReport) : Tree :=
  .table [("source", .ofText report.source),
    ("changes", .sequence (report.changes.toList.map Change.tree) true)]

def ofTree? (tree : Tree) : Option ChangesReport := do
  let source ← tree.decodeField? "source" Tree.text?
  let changes ← tree.decodeField? "changes" (Tree.items? Change.ofTree?)
  if h : changes.Pairwise (· < ·) then some ⟨source, ⟨changes, h⟩⟩ else none

theorem ofTree?_tree (report : ChangesReport) : ofTree? report.tree = some report := by
  have hchanges := Tree.items?_sequence Change.ofTree?_tree report.changes.toList
  obtain ⟨source, ⟨changes, h⟩⟩ := report
  simp [ofTree?, tree, Tree.decodeField?, List.lookup_cons, hchanges, h]

theorem tree_toJson (report : ChangesReport) : report.toJson.tree = report.tree := by
  have hchanges := Json.tree_list_map Change.tree_toJson report.changes.toList
  simp [toJson, tree, Json.tree_object, hchanges, Json.tree_text]

theorem inWords_toJson (report : ChangesReport) : report.toJson.InWords := by
  have hchanges : (Json.list (report.changes.toList.map Change.toJson)).InWords :=
    .list (List.forall_mem_map.mpr fun change _ => change.inWords_toJson)
  refine .object ?_
  simp only [List.forall_mem_cons]
  exact ⟨.text _, hchanges, nofun⟩

end ChangesReport

namespace Printout

def tree : Printout → Tree
  | selection report => report.tree
  | listing report => report.tree

/-- A listing is told from a selection by its changes. -/
def ofTree? (tree : Tree) : Option Printout :=
  match tree.fields.lookup "changes" with
  | some _ => (ChangesReport.ofTree? tree).map listing
  | none => (CountedReport.ofTree? tree).map selection

theorem ofTree?_tree (printout : Printout) : ofTree? printout.tree = some printout := by
  cases printout with
  | selection report =>
    have hnone : report.tree.fields.lookup "changes" = none := by
      cases herror : report.detectionError <;> simp [CountedReport.tree, List.lookup_cons, herror]
    simp only [ofTree?, tree, hnone, CountedReport.ofTree?_tree, Option.map_some]
  | listing report =>
    have hsome : report.tree.fields.lookup "changes" =
        some (.sequence (report.changes.toList.map Change.tree) true) := by
      simp [ChangesReport.tree, List.lookup_cons]
    simp only [ofTree?, tree, hsome, ChangesReport.ofTree?_tree, Option.map_some]

theorem tree_toJson (printout : Printout) : printout.toJson.tree = printout.tree := by
  cases printout with
  | selection report => exact report.tree_toJson
  | listing report => exact report.tree_toJson

theorem inWords_toJson (printout : Printout) : printout.toJson.InWords := by
  cases printout with
  | selection report => exact report.inWords_toJson
  | listing report => exact report.inWords_toJson

theorem read_printed (printout : Printout) :
    JsonText.read printout.printed = ⟨printout.tree, true⟩ := by
  rw [← tree_toJson]
  exact JsonText.read_document printout.inWords_toJson

theorem printed_injective : Function.Injective printed := by
  intro first second h
  have htree : first.tree = second.tree := by
    have hread := congrArg JsonText.read h
    rw [read_printed, read_printed] at hread
    exact (Document.mk.inj hread).1
  have hdecoded := congrArg ofTree? htree
  rw [ofTree?_tree, ofTree?_tree] at hdecoded
  exact Option.some.inj hdecoded

/-- What is printed is read as one value: a table of the source, of the tests in their order, each
with its name, its verdict and its reason, and of the counts, which has an error only if there is
one; or a table of the source and of the changes in their order, each with its kind and its name.
The value gives the report again, so no two reports are printed alike. A selection that was run is
printed as the counted one. -/
theorem read_as_reported :
    (∀ report : CountedReport, JsonText.read (selection report).printed =
      ⟨.table ([("source", .ofText report.source),
        ("tests", .sequence (report.tests.map fun test => .table [("test", .ofText test.test),
          ("verdict", .ofText test.verdict.word), ("reason", .ofText test.reason)]) true),
        ("summary", .table [("total", .ofCount report.summary.total),
          ("run", .ofCount report.summary.run), ("skip", .ofCount report.summary.skip)])] ++
        report.detectionError.toList.map fun error => ("detection_error", .ofText error)), true⟩) ∧
    (∀ report : ChangesReport, JsonText.read (listing report).printed =
      ⟨.table [("source", .ofText report.source),
        ("changes", .sequence (report.changes.toList.map fun change =>
          .table [("kind", .ofText change.kindWord), ("name", .ofText change.name)]) true)],
        true⟩) ∧
    (∀ printout : Printout, ofTree? (JsonText.read printout.printed).root = some printout) ∧
    Function.Injective printed ∧
    ∀ (report : SelectReport) (h : report.tests.length ≤ JsonText.maxWord),
      (selection (report.counted h)).printed = report.toJson.document := by
  refine ⟨fun report => ?_, fun report => ?_, fun printout => ?_, printed_injective, ?_⟩
  · exact read_printed (selection report)
  · exact read_printed (listing report)
  · rw [read_printed]
    exact ofTree?_tree printout
  · intro report h
    rw [printed, toJson, report.toJson_counted h]

/-- Quotes, a backslash, control characters and a character beyond the first plane. -/
theorem read_as_reported_in_shop :
    let report : SelectReport :=
      ⟨"diff to \"v1\\0\"", [⟨"a.B#\x01😀", .run, "changes in \x7f"⟩], some "no\n\tcommit"⟩
    (JsonText.read report.toJson.document).ended = true ∧
      (JsonText.read report.toJson.document).root.decodeField? "detection_error" Tree.text? =
        some "no\n\tcommit" ∧
      (JsonText.read report.toJson.document).root.decodeField? "tests"
        (Tree.items? TestReport.ofTree?) = some report.tests := by
  intro report
  have hlength : report.tests.length ≤ JsonText.maxWord := by decide
  obtain ⟨hselection, _, _, _, hcounted⟩ := read_as_reported
  rw [← hcounted report hlength, hselection]
  refine ⟨rfl, rfl, rfl⟩

end Printout

end TestSelection
