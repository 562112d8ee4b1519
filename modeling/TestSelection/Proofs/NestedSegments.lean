import Mathlib.Data.List.Infix
import TestSelection.Proofs.EncodedTexts
import TestSelection.Proofs.Segments

/-!
Packages ordered by nesting. A package lies within a base if and only if the segments of the base
begin those of the package. Beginnings of lists are ordered, and those of one list are comparable;
so packages are ordered too, and the bases of one package form a chain. The byte of a dot is part of
no other character, so comparing the bytes of encoded texts finds the same packages.
-/

namespace TestSelection

namespace Text

section Marks

variable {α : Type} [BEq α] [LawfulBEq α] {mark : α} {start whole : List α}

/-- Whether `whole` is `start` or continues it with `mark`. -/
def continues (mark : α) (whole start : List α) : Bool :=
  match whole.dropPrefix? start with
  | none => false
  | some [] => true
  | some (next :: _) => next == mark

theorem dropPrefix?_eq_some_iff_append {rest : List α} :
    whole.dropPrefix? start = some rest ↔ whole = start ++ rest := by
  simp [List.dropPrefix?_eq_some_iff]

theorem continues_iff_splitOn :
    continues mark whole start = true ↔ start.splitOn mark <+: whole.splitOn mark := by
  rw [splitOn_isPrefix_iff]
  unfold continues
  constructor
  · intro h
    split at h
    · cases h
    · next hrest =>
      left
      rw [dropPrefix?_eq_some_iff_append.mp hrest, List.append_nil]
    · next next rest hrest =>
      right
      rw [eq_of_beq h] at hrest
      exact ⟨rest, dropPrefix?_eq_some_iff_append.mp hrest⟩
  · intro h
    rcases h with hsame | ⟨rest, hlonger⟩
    · rw [dropPrefix?_eq_some_iff_append.mpr (hsame.trans (List.append_nil start).symm)]
    · rw [dropPrefix?_eq_some_iff_append.mpr hlonger]
      exact beq_self_eq_true mark

end Marks

def dot : UInt8 := 0x2e

/-- The bytes of a text are cut at the dots where the text is cut. -/
theorem splitOn_bytes (text : String) :
    (bytes text).splitOn dot =
      (segments text).map fun segment => segment.flatMap String.utf8EncodeChar := by
  have hsmall : '.'.toNat < 0x80 := by decide
  rw [bytes_eq]
  exact splitOn_encoded hsmall text.toList

theorem splitOn_bytes_isPrefix_iff {start whole : String} :
    (bytes start).splitOn dot <+: (bytes whole).splitOn dot ↔
      segments start <+: segments whole := by
  have hinjective :
      Function.Injective fun segment : List Char => segment.flatMap String.utf8EncodeChar :=
    Function.LeftInverse.injective shownChars_encoded
  rw [splitOn_bytes, splitOn_bytes, List.prefix_map_iff_of_injective hinjective]

end Text

section Order

variable {package base other : String}

theorem isWithin_iff_segments :
    isWithin package base = true ↔ Text.segments base <+: Text.segments package :=
  isWithin_iff_liesIn.trans liesIn_iff_segments

/-- Bytes are compared to the same effect as characters. -/
theorem continues_bytes (package base : String) :
    Text.continues Text.dot (Text.bytes package) (Text.bytes base) = isWithin package base := by
  rw [Bool.eq_iff_iff, Text.continues_iff_splitOn, Text.splitOn_bytes_isPrefix_iff,
    isWithin_iff_segments]

theorem LiesIn.refl (package : String) : LiesIn package package := Or.inl rfl

theorem LiesIn.antisymm (h : LiesIn package base) (hback : LiesIn base package) :
    package = base := by
  have hbegins := liesIn_iff_segments.mp h
  have hcovered := liesIn_iff_segments.mp hback
  exact Text.eq_of_segments_eq (hcovered.eq_of_length_le hbegins.length_le)

/-- Two bases of one package are nested. -/
theorem LiesIn.comparable (hbase : LiesIn package base) (hother : LiesIn package other) :
    LiesIn base other ∨ LiesIn other base := by
  rw [liesIn_iff_segments] at hbase hother
  rw [liesIn_iff_segments, liesIn_iff_segments]
  exact List.prefix_or_prefix_of_prefix hother hbase

end Order

/-- A package lies within a base exactly if the segments of the base begin those of the package, and
exactly if the bytes of the package are those of the base or continue them with a dot. Nesting is a
partial order of packages in which the bases of each package form a chain. -/
theorem nested_by_segments :
    (∀ package base, isWithin package base = true ↔
      Text.segments base <+: Text.segments package) ∧
    (∀ package base, Text.continues Text.dot (Text.bytes package) (Text.bytes base) =
      isWithin package base) ∧
    (∀ package, isWithin package package = true) ∧
    (∀ first second third, isWithin first second = true → isWithin second third = true →
      isWithin first third = true) ∧
    (∀ package base, isWithin package base = true → isWithin base package = true →
      package = base) ∧
    ∀ package base other, isWithin package base = true → isWithin package other = true →
      isWithin base other = true ∨ isWithin other base = true := by
  refine ⟨fun _ _ => isWithin_iff_segments, continues_bytes, ?_⟩
  simp only [isWithin_iff_liesIn]
  exact ⟨LiesIn.refl, fun _ _ _ => LiesIn.trans, fun _ _ => LiesIn.antisymm,
    fun _ _ _ => LiesIn.comparable⟩

/-- A dot at the end and a doubled one are borders of segments like any other, and the empty base
holds what begins with a dot. -/
theorem nested_by_segments_at_stray_dots :
    (isWithin "ü..b." "ü." = true ∧ isWithin "ü." "ü" = true ∧ isWithin "ü..b." "ü" = true) ∧
      (isWithin ".a" "" = true ∧ isWithin "a" "" = false ∧ isWithin "ü..b" "ü.b" = false) ∧
      isWithin "ü" "ü." = false ∧ (isWithin "ü" "ü." = true ∨ isWithin "ü." "ü" = true) := by
  obtain ⟨hsegments, _, _, htrans, hantisymm, hchain⟩ := nested_by_segments
  have hapart {package base : String} (h : ¬ Text.segments base <+: Text.segments package) :
      isWithin package base = false := by
    rwa [← hsegments, Bool.not_eq_true] at h
  have hinner : isWithin "ü..b." "ü." = true := (hsegments _ _).mpr (by decide)
  have houter : isWithin "ü." "ü" = true := (hsegments _ _).mpr (by decide)
  have hwhole : isWithin "ü..b." "ü" = true := htrans _ _ _ hinner houter
  have hempty : isWithin ".a" "" = true := (hsegments _ _).mpr (by decide)
  have hback : isWithin "ü" "ü." = false := by
    rw [← Bool.not_eq_true]
    intro h
    exact absurd (hantisymm _ _ houter h) (by decide)
  exact ⟨⟨hinner, houter, hwhole⟩, ⟨hempty, hapart (by decide), hapart (by decide)⟩, hback,
    hchain _ _ _ hwhole hinner⟩

end TestSelection
