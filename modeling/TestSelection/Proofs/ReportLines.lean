import TestSelection.Proofs.CandidateTexts
import TestSelection.Proofs.ParallelSelection
import TestSelection.Proofs.ReportTexts
import TestSelection.Proofs.SharedReach
import TestSelection.Proofs.UnitNames

/-!
The lines of a report without colour. A selection has a line for each candidate, in their order, and
one with the counts; a listing has a line for each change. What is written is these lines exactly as
long as no text in them has a line feed of its own, for it is written as it stands and ends a line.
The texts that may have one are the methods of candidates, the names of modules that reasons give,
and the names of changes, which come from paths.
-/

namespace TestSelection

/-- How often a line ends within a text. -/
def lineFeeds (text : String) : Nat := text.toList.count '\n'

theorem lineFeeds_append (text more : String) :
    lineFeeds (text ++ more) = lineFeeds text + lineFeeds more := by
  unfold lineFeeds
  rw [String.toList_append, List.count_append]

theorem lineFeeds_eq_zero_iff {text : String} : lineFeeds text = 0 ↔ '\n' ∉ text.toList :=
  List.count_eq_zero

/-- What is written consists of lines, each with its end. Beside these ends it has the line feeds of
the texts passed on, so that it has these lines and no others exactly if there are none. -/
structure WrittenInLines (output : List Char) (lines texts : List String) : Prop where
  eq : output = Writing.ended lines
  count : output.count '\n' = lines.length + (texts.map lineFeeds).sum
  unbroken_iff : (∀ line ∈ lines, '\n' ∉ line.toList) ↔ ∀ text ∈ texts, '\n' ∉ text.toList

namespace Writing

variable {lines texts : List String}

theorem count_ended (lines : List String) :
    (ended lines).count '\n' = lines.length + (lines.map lineFeeds).sum := by
  induction lines with
  | nil => rfl
  | cons line rest ih =>
    have hend : ['\n'].count '\n' = 1 := rfl
    have hline : line.toList.count '\n' = lineFeeds line := rfl
    rw [← List.singleton_append, ended_append, List.count_append, ih]
    simp only [ended, List.flatMap_cons, List.flatMap_nil, List.append_nil, List.count_append, hend,
      hline, List.singleton_append, List.length_cons, List.map_cons, List.sum_cons]
    omega

theorem sum_lineFeeds_eq_zero_iff :
    (texts.map lineFeeds).sum = 0 ↔ ∀ text ∈ texts, '\n' ∉ text.toList := by
  rw [List.sum_eq_zero_iff_forall_eq_nat, List.forall_mem_map]
  simp only [lineFeeds_eq_zero_iff]

theorem writtenInLines_ended (h : (lines.map lineFeeds).sum = (texts.map lineFeeds).sum) :
    WrittenInLines (ended lines) lines texts where
  eq := rfl
  count := by rw [count_ended, h]
  unbroken_iff := by rw [← sum_lineFeeds_eq_zero_iff, h, sum_lineFeeds_eq_zero_iff]

theorem foreign_lineFeed : IsForeign '\n' := by decide

theorem sum_lineFeeds_lines (writing : Writing) :
    (writing.lines.map lineFeeds).sum = (writing.texts.map lineFeeds).sum :=
  foreign_lineFeed.count_lines writing

theorem uncoloured_eq_ended (writings : List Writing) :
    (Styled.written false (writings.flatMap Writing.spans)).toList =
      ended (writings.flatMap Writing.lines) := by
  refine String.toList_ofList.trans ?_
  rw [if_neg Bool.false_ne_true]
  induction writings with
  | nil => rfl
  | cons writing rest ih =>
    rw [List.flatMap_cons, List.flatMap_append, uncoloured_spans, List.flatMap_cons, ended_append]
    exact congrArg _ ih

end Writing

namespace SelectReport

/-- What is written about a selection. -/
def writings (report : SelectReport) : List Writing :=
  report.tests.map .test ++ [.summary report.summary]

theorem spans_eq_writings (report : SelectReport) :
    report.spans = report.writings.flatMap Writing.spans := by
  simp [spans, writings, List.flatMap_map, Writing.spans]

theorem lines_writings (report : SelectReport) :
    report.writings.flatMap Writing.lines =
      report.tests.map TestReport.line ++ [report.summary.line] := by
  rw [writings, List.flatMap_append, List.flatMap_map, List.flatMap_singleton, List.map_eq_flatMap]
  rfl

end SelectReport

/-- The names of modules that a reason gives. -/
def Reason.names : Reason → List String
  | .changesIn name => [name]
  | .changesInDependency dependency name => [dependency, name]
  | .noChangesIn name => [name]
  | _ => []

theorem lineFeeds_between {before name after : String} (hbefore : lineFeeds before = 0)
    (hafter : lineFeeds after = 0) : lineFeeds (before ++ name ++ after) = lineFeeds name := by
  rw [lineFeeds_append, lineFeeds_append, hbefore, hafter, Nat.zero_add, Nat.add_zero]

/-- The line feeds in a reason are those in the names that it gives. -/
theorem Reason.lineFeeds_message (reason : Reason) :
    lineFeeds reason.message = (reason.names.map lineFeeds).sum := by
  cases reason with
  | changesIn name =>
    have hmessage : (changesIn name).message = "changes in module `" ++ name ++ "`" := rfl
    rw [hmessage, lineFeeds_between (by decide) (by decide)]
    rfl
  | changesInDependency dependency name =>
    have hmessage : (changesInDependency dependency name).message =
        "changes in dependency `" ++ dependency ++ "` of module `" ++ (name ++ "`") := by
      rw [← String.append_assoc]
      rfl
    have hmark : lineFeeds "`" = 0 := by decide
    rw [hmessage, lineFeeds_append, lineFeeds_between (by decide) (by decide), lineFeeds_append,
      hmark]
    rfl
  | noChangesIn name =>
    have hmessage : (noChangesIn name).message =
        "no changes in module `" ++ name ++ "` or its dependencies" := rfl
    rw [hmessage, lineFeeds_between (by decide) (by decide)]
    rfl
  | noChanges => decide
  | noUnitChanges => decide
  | detectionFailed => decide
  | methodOfEnabledClass => decide
  | noModule => decide

/-- A class has no line feed, so those of a candidate are those of its method. -/
theorem TestCandidate.Writes.lineFeeds_text {text : String} {candidate : TestCandidate}
    (h : Writes text candidate) :
    lineFeeds candidate.text = (candidate.method.toList.map lineFeeds).sum := by
  have hclass : lineFeeds candidate.className = 0 := by
    rw [lineFeeds_eq_zero_iff]
    intro hmem
    obtain ⟨segment, hsegment, hfeed⟩ :=
      (@Text.mem_pieces_iff (· == '.') '\n' _ (by decide)).mpr hmem
    exact (h.isClass.segments segment hsegment).2 '\n' hfeed (by decide)
  have hmark : lineFeeds "#" = 0 := by decide
  cases h with
  | ofClass _ => simpa [TestCandidate.text] using hclass
  | ofMethod _ _ => simpa [TestCandidate.text, lineFeeds_append, hmark] using hclass

namespace ModuleGraph

variable {specs : List ModuleSpec} {graph : ModuleGraph} {name other : String}

/-- The modules that a decision names are the one decided about and those it reaches. -/
theorem reaches_of_mem_names_shouldRun {set : ChangeSet}
    (h : other ∈ (graph.shouldRun name set).reason.names) : Reaches graph name other := by
  unfold shouldRun at h
  split at h
  · cases h
  split at h
  · cases h
  split at h
  · rw [List.mem_singleton.mp h]
    exact Reaches.refl name
  split at h
  · next dependency hfound =>
    have hreachable := (List.mem_filter.mp (List.mem_of_find?_eq_some hfound)).1
    rcases List.mem_cons.mp h with rfl | h
    · exact (mem_reachable_iff _ _ _).mp hreachable
    · rw [List.mem_singleton.mp h]
      exact Reaches.refl name
  · rw [List.mem_singleton.mp h]
    exact Reaches.refl name

theorem mem_names_of_moduleForPackage {package : String}
    (h : graph.moduleForPackage package = some name) : name ∈ graph.names := by
  obtain ⟨spec, hspec, rfl, _⟩ := exists_base_of_moduleForPackage h
  exact List.mem_map_of_mem hspec

/-- Reasons name declared modules only. -/
theorem declared_of_mem_names_alone (hgraph : ofSpecs specs = .ok graph) {selector : Selector}
    {read : BaselineReader} {calls : Nat} {candidate : TestCandidate}
    (h : other ∈ (Crew.alone selector read graph calls candidate).reason.names) :
    ∃ spec ∈ specs, spec.name = other := by
  cases hmodule : Selector.module? graph candidate with
  | none =>
    rw [Crew.alone_of_unlocated hmodule, Selector.unlocated] at h
    split at h
    · cases h
    · cases h
  | some name =>
    rw [Crew.alone_of_module? hmodule] at h
    cases hfound : Crew.found selector read calls with
    | failed error =>
      rw [hfound] at h
      cases h
    | changes set =>
      rw [hfound] at h
      have hname := mem_names_of_moduleForPackage (Selector.module?_eq_some_iff.mp hmodule).2
      rw [← mem_names_iff_declared hgraph]
      exact (reaches_of_mem_names_shouldRun h).mem_names hgraph hname

end ModuleGraph

namespace Text

theorem mem_joinWith {c : Char} {names : List String} (hdot : c ≠ '.')
    (h : c ∈ (joinWith "." names).toList) : ∃ name ∈ names, c ∈ name.toList := by
  induction names with
  | nil => simp [joinWith] at h
  | cons first rest ih =>
    by_cases hrest : rest = []
    · rw [hrest, joinWith, String.intercalate_singleton] at h
      exact ⟨first, List.mem_cons_self, h⟩
    · have hjoin : joinWith "." (first :: rest) = first ++ "." ++ joinWith "." rest :=
        String.intercalate_cons_of_ne_nil hrest
      rw [hjoin, String.toList_append, String.toList_append, List.mem_append, List.mem_append] at h
      rcases h with (h | h) | h
      · exact ⟨first, List.mem_cons_self, h⟩
      · exact absurd (List.mem_singleton.mp h) hdot
      · obtain ⟨name, hname, hmem⟩ := ih h
        exact ⟨name, List.mem_cons_of_mem first hname, hmem⟩

end Text

namespace SourceLayout

variable {layout : SourceLayout} {path : String} {c : Char}

theorem mem_of_mem_pathSegments {segment : String} (hc : isPathSeparator c = false)
    (hsegment : segment ∈ pathSegments path) (h : c ∈ segment.toList) : c ∈ path.toList := by
  obtain ⟨piece, hpiece, rfl⟩ := List.mem_map.mp hsegment
  rw [String.toList_ofList] at h
  exact (Text.mem_pieces_iff hc).mp ⟨piece, (List.mem_filter.mp hpiece).1, h⟩

/-- But for separators, what stands in the name of a change stands in its path. -/
theorem mem_of_mem_name {change : Change} (hc : isMarkerSeparator c = false)
    (hclassify : layout.classify path = some change) (h : c ∈ change.name.toList) :
    c ∈ path.toList := by
  obtain ⟨hseparator, hdot⟩ := Bool.or_eq_false_iff.mp hc
  have hne : c ≠ '.' := by simpa using hdot
  have hunit {identity : String} (hunit : layout.IsUnit path identity)
      (hmem : c ∈ identity.toList) : c ∈ path.toList := by
    obtain ⟨place, hleads, rfl⟩ := exists_leadsTo hunit
    obtain ⟨name, hname, hmem⟩ := Text.mem_joinWith hne hmem
    have hsuffix : place.directories ++ [place.stem ++ layout.suffix] <:+ pathSegments path :=
      hleads.belowRoot.follows.elim Follows.suffix Follows.suffix
    rcases List.mem_append.mp hname with hname | hname
    · exact mem_of_mem_pathSegments hseparator
        (hsuffix.subset (List.mem_append_left _ hname)) hmem
    · rw [List.mem_singleton.mp hname] at hmem
      refine mem_of_mem_pathSegments hseparator
        (hsuffix.subset (List.mem_append_right _ List.mem_cons_self)) ?_
      rw [String.toList_append]
      exact List.mem_append_left _ hmem
  cases change with
  | compilationUnit identity => exact hunit (Or.inl hclassify) h
  | testCompilationUnit identity => exact hunit (Or.inr hclassify) h
  | otherFile name =>
    have hclassified : layout.classify path ≠ none := by
      rw [hclassify]
      exact Option.some_ne_none _
    have hstated := stated_of_classify hclassified
    rw [classify_of_stated hstated.1 hstated.2] at hclassify
    rcases unit?_cases layout (pathSegments path) with hnone | ⟨identity, hsome | hsome⟩
    · rw [hnone] at hclassify
      cases hclassify
      exact h
    · rw [hsome] at hclassify
      cases hclassify
    · rw [hsome] at hclassify
      cases hclassify

end SourceLayout

section

variable {specs : List ModuleSpec} {graph : ModuleGraph} {selector : Selector}
variable {read : BaselineReader} {calls : Nat} {candidates : List TestCandidate}

theorem sum_lineFeeds_flatMap {α : Type} (items : List α) (textsOf : α → List String) :
    ((items.flatMap textsOf).map lineFeeds).sum =
      (items.map fun item => ((textsOf item).map lineFeeds).sum).sum := by
  induction items with
  | nil => rfl
  | cons item rest ih =>
    rw [List.flatMap_cons, List.map_append, List.sum_append, ih, List.map_cons, List.sum_cons]

/-- The line feeds in the line about a candidate are those of its method and of the modules that the
reason names. -/
theorem lineFeeds_line {text : String} {candidate : TestCandidate}
    (h : TestCandidate.Writes text candidate) (decision : Decision) :
    lineFeeds (TestReport.of candidate.text decision).line =
      ((candidate.method.toList ++ decision.reason.names).map lineFeeds).sum := by
  have hline : lineFeeds (TestReport.of candidate.text decision).line =
      lineFeeds candidate.text + lineFeeds decision.reason.message :=
    Writing.foreign_lineFeed.count_test _
  rw [hline, h.lineFeeds_text, decision.reason.lineFeeds_message, List.map_append, List.sum_append]

theorem writtenInLines_selection
    (hcandidates : ∀ candidate ∈ candidates, ∃ text, TestCandidate.Writes text candidate)
    (decision : TestCandidate → Decision) {report : SelectReport}
    (htests : report.tests = candidates.map fun candidate =>
      TestReport.of candidate.text (decision candidate)) :
    WrittenInLines (Styled.written false report.spans).toList
      ((candidates.map fun candidate => (TestReport.of candidate.text (decision candidate)).line) ++
        [report.summary.line])
      (candidates.flatMap fun candidate =>
        candidate.method.toList ++ (decision candidate).reason.names) := by
  have hsummary : lineFeeds report.summary.line = 0 := Writing.foreign_lineFeed.count_summary _
  rw [report.spans_eq_writings, Writing.uncoloured_eq_ended, report.lines_writings, htests,
    List.map_map]
  apply Writing.writtenInLines_ended
  rw [sum_lineFeeds_flatMap, List.map_append, List.sum_append, List.map_map, List.map_singleton,
    List.sum_singleton, hsummary, Nat.add_zero]
  refine congrArg List.sum (List.map_congr_left fun candidate hcandidate => ?_)
  obtain ⟨text, htext⟩ := hcandidates candidate hcandidate
  exact lineFeeds_line htext (decision candidate)

theorem writtenInLines_listing (set : ChangeSet) :
    WrittenInLines (Styled.written false set.spans).toList
      (if set.isEmpty then ["no changes"] else set.toList.map Change.line)
      (set.toList.map Change.name) := by
  have hwritten := Writing.uncoloured_eq_ended [.changes set]
  rw [List.flatMap_singleton, List.flatMap_singleton] at hwritten
  have hlines := Writing.writtenInLines_ended (Writing.sum_lineFeeds_lines (.changes set))
  rwa [← hwritten] at hlines

/-- A selection is written as a line for each candidate, which begins with its verdict, and a line
with the counts, and a listing as a line for each change: these lines and no others exactly if no
method, no module that a reason names and no change has a line feed in it, and one more for every
line feed there is. The modules named are declared ones, and a line feed in a change comes from a
path. -/
theorem written_in_lines (hgraph : ModuleGraph.ofSpecs specs = .ok graph) (selector : Selector)
    (read : BaselineReader) (calls : Nat) (candidates : List TestCandidate)
    (hcandidates : ∀ candidate ∈ candidates, ∃ text, TestCandidate.parse? text = some candidate) :
    let decision := fun candidate => (selector.evaluate read graph ⟨calls, {}⟩ candidate).value.1
    let decided := (selector.decideAll read graph ⟨calls, {}⟩ candidates).value
    let report := selector.report decided.2 decided.1
    WrittenInLines (Styled.written false report.spans).toList
      ((candidates.map fun candidate =>
        Text.padRight 4 (decision candidate).verdict.label ++ " " ++ candidate.text ++ ": " ++
          (decision candidate).reason.message) ++ [report.summary.line])
      (candidates.flatMap fun candidate =>
        candidate.method.toList ++ (decision candidate).reason.names) ∧
    (∀ candidate ∈ candidates, ∀ name ∈ (decision candidate).reason.names,
      ∃ spec ∈ specs, spec.name = name) ∧
    ∀ (layout : SourceLayout) (paths : List String),
      let set := layout.changes paths
      WrittenInLines (Styled.written false set.spans).toList
        (if set.isEmpty then ["no changes"] else set.toList.map fun change =>
          Text.padRight 6 change.label ++ " " ++ change.name)
        (set.toList.map Change.name) ∧
      ∀ change ∈ set, '\n' ∈ change.name.toList → ∃ path ∈ paths, '\n' ∈ path.toList := by
  intro decision decided report
  have htests : report.tests = candidates.map fun candidate =>
      TestReport.of candidate.text (decision candidate) :=
    congrArg Prod.fst (Crew.decideAll_untouched candidates)
  have hwrites : ∀ candidate ∈ candidates, ∃ text, TestCandidate.Writes text candidate := by
    intro candidate hcandidate
    obtain ⟨text, htext⟩ := hcandidates candidate hcandidate
    exact ⟨text, TestCandidate.writes_of_parse? htext⟩
  refine ⟨writtenInLines_selection hwrites decision htests, ?_, fun layout paths => ⟨?_, ?_⟩⟩
  · intro candidate _ name hname
    exact ModuleGraph.declared_of_mem_names_alone hgraph hname
  · exact writtenInLines_listing (layout.changes paths)
  · intro change hchange hfeed
    obtain ⟨path, hpath, hclassify⟩ := List.mem_filterMap.mp (ChangeSet.mem_ofList.mp hchange)
    exact ⟨path, hpath, SourceLayout.mem_of_mem_name (by decide) hclassify hfeed⟩

end

/-- A selector for a repository in which the source of one class is changed. -/
def orderSelector : Selector :=
  ⟨"repo", .custom "scripted" "scripted" fun _ => .ok ["src/main/java/a/b/Order.java"], .default⟩

/-- What it reports on candidates of the shop. -/
def orderReport (candidates : List TestCandidate) : SelectReport :=
  let read : BaselineReader := fun _ => Logged.pure (.ok [])
  let decided := (orderSelector.decideAll read ModuleGraph.shop ⟨0, {}⟩ candidates).value
  orderSelector.report decided.2 decided.1

theorem written_in_lines_in_shop :
    let candidates : List TestCandidate := [⟨"a.b.OrderTest", none⟩, ⟨"a.b.OrderTest", some "adds"⟩]
    let output := (Styled.written false (orderReport candidates).spans).toList
    output = Writing.ended ["RUN  a.b.OrderTest: changes in module `orders`",
      "RUN  a.b.OrderTest#adds: method of an enabled test class", "2 tests: 2 run, 0 skipped"] ∧
      output.count '\n' = 3 := by
  intro candidates output
  have hcandidates : ∀ candidate ∈ candidates,
      ∃ text, TestCandidate.parse? text = some candidate := by
    intro candidate hcandidate
    refine ⟨candidate.text, ?_⟩
    revert candidate
    decide
  obtain ⟨hwritten, _⟩ := written_in_lines ModuleGraph.ofSpecs_shopSpecs orderSelector
    (fun _ => Logged.pure (.ok [])) 0 candidates hcandidates
  have htexts : (candidates.flatMap fun candidate => candidate.method.toList ++
      (orderSelector.evaluate (fun _ => Logged.pure (.ok [])) ModuleGraph.shop ⟨0, {}⟩
        candidate).value.1.reason.names) = ["orders", "adds"] := by
    decide
  have hcount := hwritten.count
  rw [htexts] at hcount
  refine ⟨hwritten.eq.trans (congrArg Writing.ended ?_), hcount⟩
  decide

/-- One candidate, and three lines, the second of which reads like a verdict about another one. -/
theorem forged_line :
    ∃ candidate,
      TestCandidate.parse? "a.b.OrderTest#adds\nSKIP a.b.CartTest: none" = some candidate ∧
      Styled.written false (orderReport [candidate]).spans =
        "RUN  a.b.OrderTest#adds\nSKIP a.b.CartTest: none: method of an enabled test class\n" ++
          "1 test: 1 run, 0 skipped\n" ∧
      lineFeeds (Styled.written false (orderReport [candidate]).spans) = 3 := by
  refine ⟨⟨"a.b.OrderTest", some "adds\nSKIP a.b.CartTest: none"⟩, by decide, ?_, ?_⟩
  · decide
  · decide

end TestSelection
