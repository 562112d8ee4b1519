import Mathlib.Algebra.Ring.Nat
import Mathlib.Data.List.Basic
import TestSelection.Report.Writing

/-!
The lines of a writing and the texts in them. Without colour a writing is its lines, each with its
end, and a character that neither the words nor the numbers of the lines have stands in them as
often as in the texts that are passed on.
-/

namespace TestSelection

theorem isDigit_of_mem_toString {n : Nat} {c : Char} (h : c ∈ (toString n).toList) :
    c.isDigit = true := by
  rw [Nat.toString_eq_ofList_toDigits, String.toList_ofList] at h
  exact Nat.isDigit_of_mem_toDigits (by decide) (by decide) h

namespace Writing

/-- Lines with their ends. -/
def ended (lines : List String) : List Char := lines.flatMap fun line => line.toList ++ ['\n']

theorem ended_append (lines more : List String) :
    ended (lines ++ more) = ended lines ++ ended more :=
  List.flatMap_append

theorem uncoloured_test (report : TestReport) :
    report.spans.flatMap Styled.uncoloured = ended [report.line] := by
  simp [TestReport.spans, Styled.uncoloured, plain, styled, ended, TestReport.line]

theorem uncoloured_change (change : Change) :
    change.spans.flatMap Styled.uncoloured = ended [change.line] := by
  simp [Change.spans, Styled.uncoloured, plain, styled, ended, Change.line]

theorem uncoloured_summary (counts : Summary) :
    counts.spans.flatMap Styled.uncoloured = ended [counts.line] := by
  have hend : " skipped\n" = " skipped" ++ "\n" := by decide
  have hspans : counts.spans = [plain (counts.line ++ "\n")] := by
    unfold Summary.spans Summary.line
    simp only [hend, String.append_assoc, toString]
  simp [hspans, Styled.uncoloured, plain, ended]

/-- Without colour a writing is its lines. -/
theorem uncoloured_spans (writing : Writing) :
    writing.spans.flatMap Styled.uncoloured = ended writing.lines := by
  cases writing with
  | test report => exact uncoloured_test report
  | summary counts => exact uncoloured_summary counts
  | changes set =>
    simp only [spans, lines, ChangeSet.spans]
    split
    · rfl
    · induction set.toList with
      | nil => rfl
      | cons change rest ih =>
        rw [List.flatMap_cons, List.flatMap_append, uncoloured_change, ih, ← ended_append]
        rfl

variable {c : Char}

theorem IsForeign.count_word (h : IsForeign c) (word : String) (hword : word ∈ words) :
    word.toList.count c = 0 :=
  List.count_eq_zero.mpr (h.2 word hword)

theorem IsForeign.count_number (h : IsForeign c) (n : Nat) : (toString n).toList.count c = 0 := by
  refine List.count_eq_zero.mpr fun hmem => ?_
  have hdigit := h.1
  rw [isDigit_of_mem_toString hmem] at hdigit
  cases hdigit

theorem IsForeign.count_test (h : IsForeign c) (report : TestReport) :
    report.line.toList.count c = report.test.toList.count c + report.reason.toList.count c := by
  have hword : Text.padRight 4 report.verdict.label ∈ words := by
    cases report.verdict <;> decide
  have hverdict := h.count_word _ hword
  have hspace := h.count_word " " (by simp [words])
  have hcolon := h.count_word ": " (by simp [words])
  simp only [TestReport.line, String.toList_append, List.count_append]
  omega

theorem IsForeign.count_change (h : IsForeign c) (change : Change) :
    change.line.toList.count c = change.name.toList.count c := by
  have hword : Text.padRight 6 change.label ∈ words := by
    cases change with
    | compilationUnit _ => exact (by decide : Text.padRight 6 "source" ∈ words)
    | testCompilationUnit _ => exact (by decide : Text.padRight 6 "test" ∈ words)
    | otherFile _ => exact (by decide : Text.padRight 6 "file" ∈ words)
  have hlabel := h.count_word _ hword
  have hspace := h.count_word " " (by simp [words])
  simp only [Change.line, String.toList_append, List.count_append]
  omega

theorem IsForeign.count_summary (h : IsForeign c) (counts : Summary) :
    counts.line.toList.count c = 0 := by
  have hnoun : (if counts.total = 1 then "test" else "tests").toList.count c = 0 := by
    split
    · exact h.count_word "test" (by simp [words])
    · exact h.count_word "tests" (by simp [words])
  have hspace := h.count_word " " (by simp [words])
  have hcolon := h.count_word ": " (by simp [words])
  have hrun := h.count_word " run, " (by simp [words])
  have hskip := h.count_word " skipped" (by simp [words])
  have htotal := h.count_number counts.total
  have hran := h.count_number counts.run
  have hskipped := h.count_number counts.skip
  have hline : counts.line = toString counts.total ++ " " ++
      (if counts.total = 1 then "test" else "tests") ++ ": " ++ toString counts.run ++ " run, " ++
      toString counts.skip ++ " skipped" := rfl
  rw [hline]
  simp only [String.toList_append, List.count_append]
  omega

/-- A foreign character stands in the lines of a writing as often as in the texts passed on. -/
theorem IsForeign.count_lines (h : IsForeign c) (writing : Writing) :
    (writing.lines.map fun line => line.toList.count c).sum =
      (writing.texts.map fun text => text.toList.count c).sum := by
  cases writing with
  | test report => simp [lines, texts, h.count_test report]
  | summary counts => simp [lines, texts, h.count_summary counts]
  | changes set =>
    simp only [lines, texts]
    split
    · next hempty =>
      have hnone := h.count_word "no changes" (by simp [words])
      rw [List.isEmpty_iff.mp hempty, List.map_singleton, List.sum_singleton, hnone]
      rfl
    · rw [List.map_map, List.map_map]
      exact congrArg List.sum (List.map_congr_left fun change _ => h.count_change change)

end Writing

end TestSelection
