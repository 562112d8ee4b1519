import TestSelection.Text.Pieces

/-!
Cutting a text undoes putting it together. What a cut returns is always a way to write the text as
two parts around what was cut away, and each cut says which of these ways it picks: the first or
the last occurrence of a mark, or a given start or ending.
-/

namespace TestSelection.Text

theorem dropStart?_eq_some_iff {start text rest : List Char} :
    dropStart? start text = some rest ↔ text = start ++ rest := by
  unfold dropStart?
  constructor
  · intro h
    split at h
    · next hstart =>
      obtain ⟨other, rfl⟩ := List.isPrefixOf_iff_prefix.mp hstart
      rw [← Option.some.inj h, List.drop_left]
    · exact absurd h (by simp)
  · rintro rfl
    rw [if_pos (List.isPrefixOf_iff_prefix.mpr (List.prefix_append start rest)), List.drop_left]

theorem dropEnd?_eq_some_iff {ending text rest : List Char} :
    dropEnd? ending text = some rest ↔ text = rest ++ ending := by
  unfold dropEnd?
  constructor
  · intro h
    split at h
    · next hending =>
      obtain ⟨other, rfl⟩ := List.isSuffixOf_iff_suffix.mp hending
      rw [← Option.some.inj h]
      simp
    · exact absurd h (by simp)
  · rintro rfl
    rw [if_pos (List.isSuffixOf_iff_suffix.mpr (List.suffix_append rest ending))]
    simp

theorem cutFirst_eq_some_iff {mark : Char} {text before after : List Char} :
    cutFirst mark text = some (before, after) ↔
      text = before ++ mark :: after ∧ mark ∉ before := by
  unfold cutFirst
  constructor
  · intro h
    split at h
    · exact absurd h (by simp)
    · next c rest hdrop =>
      obtain ⟨rfl, rfl⟩ := Prod.mk.inj (Option.some.inj h)
      have hc : c = mark := by
        have hhead := List.head?_dropWhile_not (fun c => decide (c ≠ mark)) text
        rw [hdrop] at hhead
        simpa using hhead
      subst hc
      refine ⟨?_, ?_⟩
      · rw [← hdrop, List.takeWhile_append_dropWhile]
      · intro hmark
        have hkept := List.all_eq_true.mp (List.all_takeWhile (p := (· ≠ c)) (l := text)) c hmark
        simp at hkept
  · rintro ⟨rfl, hbefore⟩
    have hkept : ∀ c ∈ before, decide (c ≠ mark) = true := by
      intro c hc
      simpa using fun h : c = mark => hbefore (h ▸ hc)
    rw [List.dropWhile_append_of_pos hkept, List.takeWhile_append_of_pos hkept]
    simp

theorem cutFirst_eq_none_iff {mark : Char} {text : List Char} :
    cutFirst mark text = none ↔ mark ∉ text := by
  constructor
  · intro h hmark
    obtain ⟨before, after, htext, hbefore⟩ := List.eq_append_cons_of_mem hmark
    rw [cutFirst_eq_some_iff.mpr ⟨htext, hbefore⟩] at h
    exact absurd h (by simp)
  · intro h
    cases hcut : cutFirst mark text with
    | none => rfl
    | some found =>
      obtain ⟨htext, _⟩ := cutFirst_eq_some_iff.mp hcut
      exact absurd (by rw [htext]; simp) h

theorem cutLast_eq_some_iff {mark : Char} {text before after : List Char} :
    cutLast mark text = some (before, after) ↔
      text = before ++ mark :: after ∧ mark ∉ after := by
  unfold cutLast
  constructor
  · intro h
    obtain ⟨⟨first, last⟩, hfound, hpair⟩ := Option.map_eq_some_iff.mp h
    obtain ⟨rfl, rfl⟩ := Prod.mk.inj hpair
    obtain ⟨htext, hfirst⟩ := cutFirst_eq_some_iff.mp hfound
    refine ⟨?_, by simpa using hfirst⟩
    rw [← List.reverse_reverse text, htext]
    simp
  · rintro ⟨rfl, hafter⟩
    have hfound : cutFirst mark (before ++ mark :: after).reverse =
        some (after.reverse, before.reverse) :=
      cutFirst_eq_some_iff.mpr ⟨by simp, by simpa using hafter⟩
    rw [hfound]
    simp

theorem cutLast_eq_none_iff {mark : Char} {text : List Char} :
    cutLast mark text = none ↔ mark ∉ text := by
  unfold cutLast
  rw [Option.map_eq_none_iff, cutFirst_eq_none_iff, List.mem_reverse]

/-- A character that separates nothing stands in a text exactly if it stands in one of its
pieces. -/
theorem mem_pieces_iff {separator : Char → Bool} {c : Char} {text : List Char}
    (h : separator c = false) : (∃ piece ∈ pieces separator text, c ∈ piece) ↔ c ∈ text := by
  unfold pieces
  induction text with
  | nil => simp
  | cons first rest ih =>
    rw [List.splitOnP_cons_eq_if_modifyHead, List.mem_cons, ← ih]
    by_cases hfirst : separator first
    · have hne : c ≠ first := by
        rintro rfl
        rw [h] at hfirst
        cases hfirst
      simp [hfirst, hne]
    · obtain ⟨piece, others, hpieces⟩ :=
        List.exists_cons_of_ne_nil (List.splitOnP_ne_nil separator rest)
      simp [hfirst, hpieces, or_assoc]

end TestSelection.Text
