import TestSelection.Proofs.ReportTexts
import TestSelection.Report.Terminal

/-!
Colour only styles. A writer that marks styles by sequences adds nothing but sequences to what is
written without colour, so deleting them from a coloured report leaves the plain one. Between two
spans no style is in force, because a span that sets a style also resets it.
-/

namespace TestSelection

namespace Terminal

variable {text parameters rest marks : List Char}

theorem sequence?_of_ne {c : Char} (h : c ≠ escape) : sequence? (c :: rest) = none := by
  cases rest with
  | nil => rfl
  | cons second rest =>
    unfold sequence?
    split
    · next heq =>
      obtain ⟨rfl, _⟩ := List.cons.inj heq
      rw [if_neg h]
    · rfl

theorem sequence?_of_sequence (h : ∀ c ∈ parameters, isParameterChar c) :
    sequence? (escape :: '[' :: (parameters ++ 'm' :: rest)) = some (parameters, rest) := by
  have hend : isParameterChar 'm' = false := by decide
  have hdrop : (parameters ++ 'm' :: rest).dropWhile isParameterChar = 'm' :: rest := by
    rw [List.dropWhile_append_of_pos h, List.dropWhile_cons_of_neg (by simp [hend])]
  have htake : (parameters ++ 'm' :: rest).takeWhile isParameterChar = parameters := by
    rw [List.takeWhile_append_of_pos h, List.takeWhile_cons_of_neg (by simp [hend]),
      List.append_nil]
  simp only [sequence?, hdrop, htake, if_true]

theorem pieces_nil : pieces [] = [] := by
  rw [pieces]

theorem pieces_of_none {c : Char} (h : sequence? (c :: rest) = none) :
    pieces (c :: rest) = .shown c :: pieces rest := by
  rw [pieces]
  split
  · next hsome =>
    rw [h] at hsome
    cases hsome
  · rfl

theorem pieces_of_some {c : Char} (h : sequence? (c :: text) = some (parameters, rest)) :
    pieces (c :: text) = .sequence parameters :: pieces rest := by
  rw [pieces]
  split
  · next hsome =>
    rw [h] at hsome
    cases hsome
    rfl
  · next hnone =>
    rw [h] at hnone
    cases hnone

/-- A text without an escape character is shown as it stands. -/
theorem pieces_append_of_plain (h : escape ∉ text) :
    pieces (text ++ rest) = text.map Piece.shown ++ pieces rest := by
  induction text with
  | nil => rfl
  | cons c text ih =>
    obtain ⟨hc, htext⟩ := not_or.mp fun hmem => h (List.mem_cons.mpr hmem)
    rw [List.cons_append, pieces_of_none (sequence?_of_ne (Ne.symm hc)), ih htext]
    rfl

/-- The text consists of sequences. -/
inductive OnlySequences : List Char → Prop
  | nil : OnlySequences []
  | cons {parameters rest : List Char} (h : ∀ c ∈ parameters, isParameterChar c)
    (hrest : OnlySequences rest) : OnlySequences (escape :: '[' :: (parameters ++ 'm' :: rest))

theorem OnlySequences.append (h : OnlySequences marks) (hrest : OnlySequences rest) :
    OnlySequences (marks ++ rest) := by
  induction h with
  | nil => exact hrest
  | @cons parameters more hparameters _ ih =>
    have heq : escape :: '[' :: (parameters ++ 'm' :: more) ++ rest =
        escape :: '[' :: (parameters ++ 'm' :: (more ++ rest)) := by simp
    rw [heq]
    exact .cons hparameters ih

theorem OnlySequences.exists_pieces (h : OnlySequences marks) :
    ∃ taken : List (List Char),
      ∀ rest, pieces (marks ++ rest) = taken.map Piece.sequence ++ pieces rest := by
  induction h with
  | nil => exact ⟨[], fun rest => rfl⟩
  | @cons parameters more hparameters _ ih =>
    obtain ⟨taken, htaken⟩ := ih
    refine ⟨parameters :: taken, fun rest => ?_⟩
    have heq : escape :: '[' :: (parameters ++ 'm' :: more) ++ rest =
        escape :: '[' :: (parameters ++ 'm' :: (more ++ rest)) := by simp
    rw [heq, pieces_of_some (sequence?_of_sequence hparameters), htaken]
    rfl

theorem filterMap_sequences (taken : List (List Char)) :
    (taken.map Piece.sequence).filterMap Piece.char? = [] := by
  rw [List.filterMap_map, List.filterMap_eq_nil_iff]
  exact fun _ _ => rfl

theorem filterMap_shown (text : List Char) :
    (text.map Piece.shown).filterMap Piece.char? = text := by
  rw [List.filterMap_map]
  exact List.filterMap_some

theorem foldl_shown (before : List Nat) (text : List Char) :
    (text.map Piece.shown).foldl Piece.act before = before := by
  induction text with
  | nil => rfl
  | cons c text ih => exact ih

theorem withoutSequences_append_of_plain (h : escape ∉ text) :
    withoutSequences (text ++ rest) = text ++ withoutSequences rest := by
  rw [withoutSequences, pieces_append_of_plain h, List.filterMap_append, filterMap_shown]
  rfl

theorem OnlySequences.withoutSequences_append (h : OnlySequences marks) :
    withoutSequences (marks ++ rest) = withoutSequences rest := by
  obtain ⟨taken, htaken⟩ := h.exists_pieces
  rw [withoutSequences, htaken, List.filterMap_append, filterMap_sequences]
  rfl

theorem inForce_append_of_plain {before : List Nat} (h : escape ∉ text) :
    inForce before (text ++ rest) = inForce before rest := by
  rw [inForce, pieces_append_of_plain h, List.foldl_append, foldl_shown]
  rfl

theorem OnlySequences.inForce_append {before : List Nat} (h : OnlySequences marks) :
    inForce before (marks ++ rest) = inForce (inForce before marks) rest := by
  obtain ⟨taken, htaken⟩ := h.exists_pieces
  have hmarks := htaken []
  rw [List.append_nil, pieces_nil, List.append_nil] at hmarks
  rw [inForce, htaken, List.foldl_append, inForce, inForce, hmarks]

end Terminal

namespace Palette

open Terminal

variable {palette : Palette} {span : Span} {spans : List Span} {rest : List Char}

/-- Setting and resetting a style writes sequences only, and a reset ends all that is in force. -/
structure Lawful (palette : Palette) : Prop where
  set : ∀ style, OnlySequences (palette.set style)
  reset : OnlySequences palette.reset
  ends : ∀ before, inForce before palette.reset = []

theorem withoutSequences_drawn_append (h : palette.Lawful) (hspan : escape ∉ span.text.toList) :
    withoutSequences (palette.drawn span ++ rest) =
      colourless.drawn span ++ withoutSequences rest := by
  unfold drawn
  cases span.style with
  | none => exact withoutSequences_append_of_plain hspan
  | some style =>
    rw [List.append_assoc, List.append_assoc, (h.set style).withoutSequences_append,
      withoutSequences_append_of_plain hspan, h.reset.withoutSequences_append]
    simp [colourless]

/-- Behind a span the style that was in force in front of it is in force again, if that was none. -/
theorem inForce_drawn_append (h : palette.Lawful) (hspan : escape ∉ span.text.toList) :
    inForce [] (palette.drawn span ++ rest) = inForce [] rest := by
  unfold drawn
  cases span.style with
  | none => exact inForce_append_of_plain hspan
  | some style =>
    rw [List.append_assoc, List.append_assoc, (h.set style).inForce_append,
      inForce_append_of_plain hspan, h.reset.inForce_append, h.ends]

theorem withoutSequences_drawn (h : palette.Lawful)
    (hspans : ∀ span ∈ spans, escape ∉ span.text.toList) :
    withoutSequences (spans.flatMap palette.drawn) = spans.flatMap colourless.drawn := by
  induction spans with
  | nil =>
    rw [List.flatMap_nil, List.flatMap_nil, withoutSequences, pieces_nil]
    rfl
  | cons span spans ih =>
    obtain ⟨hspan, hrest⟩ := List.forall_mem_cons.mp hspans
    rw [List.flatMap_cons, List.flatMap_cons, withoutSequences_drawn_append h hspan, ih hrest]

theorem inForce_drawn (h : palette.Lawful)
    (hspans : ∀ span ∈ spans, escape ∉ span.text.toList) :
    inForce [] (spans.flatMap palette.drawn) = [] := by
  induction spans with
  | nil =>
    rw [List.flatMap_nil, inForce, pieces_nil]
    rfl
  | cons span spans ih =>
    obtain ⟨hspan, hrest⟩ := List.forall_mem_cons.mp hspans
    rw [List.flatMap_cons, inForce_drawn_append h hspan, ih hrest]

theorem onlySequences_escapeSequence (parameter : Nat) :
    OnlySequences (Styled.escapeSequence parameter) := by
  refine OnlySequences.cons ?_ OnlySequences.nil
  intro c hc
  have hdigit : c.isDigit = true :=
    Nat.isDigit_of_mem_toDigits (by decide) (by decide) hc
  rw [isParameterChar, hdigit, Bool.true_or]

theorem onlySequences_flatMap (parameters : List Nat) :
    OnlySequences (parameters.flatMap Styled.escapeSequence) := by
  induction parameters with
  | nil => exact .nil
  | cons parameter parameters ih => exact (onlySequences_escapeSequence parameter).append ih

theorem lawful_ansi : ansi.Lawful where
  set style := onlySequences_flatMap _
  reset := onlySequences_escapeSequence 0
  ends before := by
    have hpieces : pieces ansi.reset = [.sequence ['0']] := by
      have hsequence : sequence? ansi.reset = some (['0'], []) := by decide
      exact (pieces_of_some hsequence).trans (congrArg _ pieces_nil)
    rw [inForce, hpieces]
    rfl

/-- Spans drawn with a palette present what is written without colour: but for sequences it is the
same, and no style is in force in front of a span without one or at the end. -/
structure Presents (palette : Palette) (spans : List Span) : Prop where
  same : withoutSequences (spans.flatMap palette.drawn) = spans.flatMap colourless.drawn
  unstyled : ∀ before span after, spans = before ++ span :: after → span.style = none →
    inForce [] (before.flatMap palette.drawn) = []
  closed : inForce [] (spans.flatMap palette.drawn) = []

theorem presents_of_plain (h : palette.Lawful)
    (hspans : ∀ span ∈ spans, escape ∉ span.text.toList) : Presents palette spans where
  same := withoutSequences_drawn h hspans
  unstyled before span after hsplit _ := by
    apply inForce_drawn h
    intro other hother
    apply hspans
    rw [hsplit]
    exact List.mem_append_left _ hother
  closed := inForce_drawn h hspans

end Palette

namespace Writing

open Terminal

variable {writing : Writing}

/-- The words of the program hold no escape character. -/
theorem escape_notMem_spans (h : ∀ text ∈ writing.texts, escape ∉ text.toList) :
    ∀ span ∈ writing.spans, escape ∉ span.text.toList := by
  intro span hspan hmem
  have hforeign : IsForeign escape := by decide
  have hnone : (writing.texts.map fun text => text.toList.count escape).sum = 0 := by
    rw [List.sum_eq_zero_iff_forall_eq_nat]
    intro count hcount
    obtain ⟨text, htext, rfl⟩ := List.mem_map.mp hcount
    exact List.count_eq_zero.mpr (h text htext)
  rw [← hforeign.count_lines, List.sum_eq_zero_iff_forall_eq_nat] at hnone
  have hwritten : escape ∈ ended writing.lines := by
    rw [← uncoloured_spans]
    exact List.mem_flatMap.mpr ⟨span, hspan, hmem⟩
  obtain ⟨line, hline, hescape⟩ := List.mem_flatMap.mp hwritten
  rcases List.mem_append.mp hescape with hescape | hend
  · have hcount := hnone _ (List.mem_map.mpr ⟨line, hline, rfl⟩)
    exact List.count_eq_zero.mp hcount hescape
  · exact absurd hend (by decide)

/-- Whatever is written, if no text passed on has an escape character, then a palette that writes
sequences only and ends all styles in a reset presents what is written without colour. The palette
of coloured output does so, and colour is written with it. -/
theorem colour_only_styles (writings : List Writing)
    (h : ∀ writing ∈ writings, ∀ text ∈ writing.texts, escape ∉ text.toList) :
    let spans := writings.flatMap Writing.spans
    (∀ palette : Palette, palette.Lawful → palette.Presents spans) ∧
      Palette.ansi.Presents spans ∧
      (Styled.written true spans).toList = spans.flatMap Palette.ansi.drawn ∧
      (Styled.written false spans).toList = spans.flatMap Palette.colourless.drawn := by
  intro spans
  have hplain : ∀ span ∈ spans, escape ∉ span.text.toList := by
    intro span hspan
    obtain ⟨writing, hwriting, hspan⟩ := List.mem_flatMap.mp hspan
    exact escape_notMem_spans (h writing hwriting) span hspan
  refine ⟨fun palette hpalette => Palette.presents_of_plain hpalette hplain,
    Palette.presents_of_plain Palette.lawful_ansi hplain, ?_, ?_⟩
  · exact String.toList_ofList
  · refine String.toList_ofList.trans (List.flatMap_congr fun span _ => ?_)
    unfold Styled.uncoloured Palette.drawn
    cases span.style with
    | none => rfl
    | some style => simp [Palette.colourless]

/-- A text that looks like the end of a sequence, and a summary behind it. -/
theorem colour_only_styles_in_shop :
    let spans := [test ⟨"a.b.CTest", .run, "[0m"⟩, summary ⟨1, 1, 0⟩].flatMap Writing.spans
    (Styled.written true spans =
      "\x1b[0m\x1b[1m\x1b[32mRUN \x1b[0m \x1b[0m\x1b[1ma.b.CTest\x1b[0m" ++
        ": \x1b[0m\x1b[2m[0m\x1b[0m\n1 test: 1 run, 0 skipped\n") ∧
      withoutSequences (Styled.written true spans).toList =
        "RUN  a.b.CTest: [0m\n1 test: 1 run, 0 skipped\n".toList ∧
      inForce [] (Styled.written true spans).toList = [] := by
  intro spans
  obtain ⟨_, hpresents, hcoloured, hplain⟩ := colour_only_styles
    [test ⟨"a.b.CTest", .run, "[0m"⟩, summary ⟨1, 1, 0⟩] (by decide)
  have hwritten : (Styled.written false spans).toList =
      "RUN  a.b.CTest: [0m\n1 test: 1 run, 0 skipped\n".toList := by decide
  refine ⟨by decide, ?_, ?_⟩
  · rw [hcoloured, hpresents.same, ← hplain, hwritten]
  · rw [hcoloured]
    exact hpresents.closed

end Writing

end TestSelection
