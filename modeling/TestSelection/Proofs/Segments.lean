import TestSelection.Proofs.PackageNesting

/-!
Segments of dotted texts. The dots of a text cut it into segments, empty ones included, and putting
the segments together again gives the text. So a package lies in a base if and only if the segments
of the base begin those of the package, and the package of an identity is what its last segment
leaves of it.
-/

namespace TestSelection

namespace Text

variable {text : String}

theorem segments_append (before after : String) :
    segments (before ++ "." ++ after) = segments before ++ segments after := by
  have htext : (before ++ "." ++ after).toList = before.toList ++ '.' :: after.toList := by
    simp [String.toList_append]
  rw [segments, htext, List.splitOn_append_cons_self]
  rfl

theorem joined_segments (text : String) : ['.'].intercalate (segments text) = text.toList :=
  List.intercalate_splitOn '.'

theorem segments_ne_nil (text : String) : segments text ≠ [] := List.splitOn_ne_nil _ _

theorem eq_of_segments_eq {other : String} (h : segments text = segments other) : text = other := by
  apply String.toList_inj.mp
  rw [← joined_segments text, h, joined_segments other]

theorem segments_of_no_dot (h : '.' ∉ text.toList) : segments text = [text.toList] :=
  List.splitOn_eq_singleton h

theorem intercalate_append {α : Type} {separator : List α} {parts more : List (List α)}
    (hparts : parts ≠ []) (hmore : more ≠ []) :
    separator.intercalate (parts ++ more) =
      separator.intercalate parts ++ separator ++ separator.intercalate more := by
  induction parts with
  | nil => exact absurd rfl hparts
  | cons first rest ih =>
    cases rest with
    | nil =>
      rw [List.singleton_append, List.intercalate_cons_of_ne_nil hmore, List.intercalate_singleton]
    | cons second rest =>
      have hrest : second :: rest ≠ [] := List.cons_ne_nil _ _
      have hboth : second :: rest ++ more ≠ [] := by simp
      rw [List.cons_append, List.intercalate_cons_of_ne_nil hboth, ih hrest,
        List.intercalate_cons_of_ne_nil hrest]
      simp only [List.append_assoc]

section Marks

variable {α : Type} [BEq α] [LawfulBEq α] {mark : α} {start whole : List α}

/-- The pieces of one list begin those of another if and only if the other is the same list or
continues it with a mark. -/
theorem splitOn_isPrefix_iff : start.splitOn mark <+: whole.splitOn mark ↔
    whole = start ∨ ∃ rest, whole = start ++ mark :: rest := by
  have hjoined (text : List α) : [mark].intercalate (text.splitOn mark) = text :=
    List.intercalate_splitOn mark
  constructor
  · intro ⟨more, hmore⟩
    by_cases hend : more = []
    · left
      rw [hend, List.append_nil] at hmore
      rw [← hjoined whole, ← hmore, hjoined start]
    · right
      refine ⟨[mark].intercalate more, ?_⟩
      rw [← hjoined whole, ← hmore, intercalate_append (List.splitOn_ne_nil mark start) hend,
        hjoined start, List.append_assoc, List.singleton_append]
  · intro h
    rcases h with rfl | ⟨rest, rfl⟩
    · exact List.prefix_rfl
    · rw [List.splitOn_append_cons_self]
      exact List.prefix_append _ _

end Marks

end Text

variable {package base : String}

/-- A package lies in a base if and only if the segments of the base begin those of the package. -/
theorem liesIn_iff_segments :
    LiesIn package base ↔ Text.segments base <+: Text.segments package := by
  rw [liesIn_iff_toList]
  exact Text.splitOn_isPrefix_iff.symm

/-- The package of an identity has all segments but the last, which is the whole identity where
there is no dot. -/
theorem packageOf_cases (identity : String) :
    ('.' ∉ identity.toList ∧ packageOf identity = "" ∧
        Text.segments identity = [identity.toList]) ∨
      ∃ last, identity = packageOf identity ++ "." ++ last ∧ '.' ∉ last.toList ∧
        Text.segments identity = Text.segments (packageOf identity) ++ [last.toList] := by
  by_cases hdot : '.' ∈ identity.toList
  · obtain ⟨before, last, rfl, hlast⟩ := exists_last_dot hdot
    rw [packageOf_append before hlast]
    refine Or.inr ⟨last, rfl, hlast, ?_⟩
    rw [Text.segments_append, Text.segments_of_no_dot hlast]
  · have hnone : Text.cutLast '.' identity.toList = none := Text.cutLast_eq_none_iff.mpr hdot
    refine Or.inl ⟨hdot, ?_, Text.segments_of_no_dot hdot⟩
    rw [packageOf, hnone]

end TestSelection
