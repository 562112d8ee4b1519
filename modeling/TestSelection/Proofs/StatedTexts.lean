import Mathlib.Data.List.TakeWhile
import TestSelection.Settings.Selection

/-!
What a text states. A text states what is left of it when the blank characters around it are taken
away; a text of blank characters states nothing. A field of a selection that is not given, or whose
text states nothing, is not set.
-/

namespace TestSelection

namespace Text

/-- Nothing but blank characters. -/
def IsBlankText (text : String) : Prop := ∀ c ∈ text.toList, isBlank c

/-- `core` is what lies between the blank characters around `text`, and there is something. -/
structure States (text core : String) : Prop where
  exists_split : ∃ before after : List Char, text.toList = before ++ core.toList ++ after ∧
    (∀ c ∈ before, isBlank c) ∧ ∀ c ∈ after, isBlank c
  head_not_blank : ∀ c ∈ core.toList.head?, ¬ isBlank c
  last_not_blank : ∀ c ∈ core.toList.getLast?, ¬ isBlank c
  ne_empty : core ≠ ""

theorem trimStart_of_head {blanks rest : List Char} (hblanks : ∀ c ∈ blanks, isBlank c)
    (hrest : ∀ c ∈ rest.head?, ¬ isBlank c) : trimStart (blanks ++ rest) = rest := by
  unfold trimStart
  rw [List.dropWhile_append_of_pos hblanks]
  cases rest with
  | nil => rfl
  | cons c rest => exact List.dropWhile_cons_of_neg (hrest c rfl)

theorem trimEnd_of_last {rest blanks : List Char} (hblanks : ∀ c ∈ blanks, isBlank c)
    (hrest : ∀ c ∈ rest.getLast?, ¬ isBlank c) : trimEnd (rest ++ blanks) = rest := by
  have hback : trimStart (blanks.reverse ++ rest.reverse) = rest.reverse := by
    refine trimStart_of_head (fun c hc => hblanks c (List.mem_reverse.mp hc)) fun c hc => ?_
    exact hrest c (by simpa using hc)
  have hend : trimEnd (rest ++ blanks) = (trimStart (blanks.reverse ++ rest.reverse)).reverse := by
    simp [trimEnd, trimStart]
  rw [hend, hback, List.reverse_reverse]

/-- The blank characters in front of a text, and what follows them. -/
theorem exists_trimStart (text : List Char) : ∃ blanks, text = blanks ++ trimStart text ∧
    (∀ c ∈ blanks, isBlank c) ∧ ∀ c ∈ (trimStart text).head?, ¬ isBlank c := by
  refine ⟨text.takeWhile isBlank, List.takeWhile_append_dropWhile.symm, ?_, ?_⟩
  · exact fun c hc => List.mem_takeWhile_imp hc
  · intro c hc
    have hhead := List.head?_dropWhile_not isBlank text
    rw [trimStart] at hc
    rw [Option.mem_def.mp hc] at hhead
    simpa using hhead

theorem exists_trimEnd (text : List Char) : ∃ blanks, text = trimEnd text ++ blanks ∧
    (∀ c ∈ blanks, isBlank c) ∧ ∀ c ∈ (trimEnd text).getLast?, ¬ isBlank c := by
  obtain ⟨blanks, hsplit, hblanks, hhead⟩ := exists_trimStart text.reverse
  have hend : trimEnd text = (trimStart text.reverse).reverse := rfl
  refine ⟨blanks.reverse, ?_, fun c hc => hblanks c (List.mem_reverse.mp hc), fun c hc => ?_⟩
  · rw [hend, ← List.reverse_append, ← hsplit, List.reverse_reverse]
  · exact hhead c (by simpa [hend] using hc)

theorem trim_of_states {text core : String} (h : States text core) : trim text = core := by
  obtain ⟨before, after, hsplit, hbefore, hafter⟩ := h.exists_split
  have hhead : ∀ c ∈ (core.toList ++ after).head?, ¬ isBlank c := by
    cases hcore : core.toList with
    | nil => exact absurd (String.toList_eq_nil_iff.mp hcore) h.ne_empty
    | cons c rest =>
      intro d hd
      exact h.head_not_blank d (by simpa [hcore] using hd)
  unfold trim trimChars
  rw [hsplit, List.append_assoc, trimStart_of_head hbefore hhead,
    trimEnd_of_last hafter h.last_not_blank, String.ofList_toList]

theorem states_trim {text : String} (h : trim text ≠ "") : States text (trim text) := by
  obtain ⟨before, hstart, hbefore, hhead⟩ := exists_trimStart text.toList
  obtain ⟨after, hend, hafter, hlast⟩ := exists_trimEnd (trimStart text.toList)
  have htrim : (trim text).toList = trimEnd (trimStart text.toList) := by simp [trim, trimChars]
  refine ⟨⟨before, after, ?_, hbefore, hafter⟩, fun c hc => hhead c ?_, ?_, h⟩
  · rw [htrim, List.append_assoc, ← hend]
    exact hstart
  · rw [hend, ← htrim, List.head?_append, Option.mem_def.mp hc]
    rfl
  · rw [htrim]
    exact hlast

theorem trim_eq_empty_iff {text : String} : trim text = "" ↔ IsBlankText text := by
  constructor
  · intro h
    obtain ⟨before, hstart, hbefore, _⟩ := exists_trimStart text.toList
    obtain ⟨after, hend, hafter, _⟩ := exists_trimEnd (trimStart text.toList)
    have hnil : trimEnd (trimStart text.toList) = [] := by
      simpa [trim, trimChars] using congrArg String.toList h
    rw [hnil, List.nil_append] at hend
    intro c hc
    rw [hstart, List.mem_append] at hc
    rcases hc with hc | hc
    · exact hbefore c hc
    · exact hafter c (hend ▸ hc)
  · intro h
    have hnil : trimStart text.toList = [] := List.dropWhile_eq_nil_iff.mpr h
    simp [trim, trimChars, hnil, trimEnd]

theorem stated?_eq_some_iff {text core : String} : stated? text = some core ↔ States text core := by
  unfold stated?
  constructor
  · intro h
    split at h
    · cases h
    · next hne =>
      cases h
      exact states_trim hne
  · intro h
    rw [trim_of_states h, if_neg h.ne_empty]

theorem stated?_eq_none_iff {text : String} : stated? text = none ↔ IsBlankText text := by
  rw [← trim_eq_empty_iff, stated?]
  split <;> simp [*]

end Text

namespace Selection

/-- A field that is not given, or blank. -/
def Unset (field : Option String) : Prop := ∀ text ∈ field, Text.IsBlankText text

/-- A field whose text states `core`. -/
def Sets (field : Option String) (core : String) : Prop :=
  ∃ text, field = some text ∧ Text.States text core

theorem unset_iff {field : Option String} : field.bind Text.stated? = none ↔ Unset field := by
  simp only [Option.bind_eq_none_iff, Text.stated?_eq_none_iff, Unset, Option.mem_def]

theorem sets_iff {field : Option String} {core : String} :
    field.bind Text.stated? = some core ↔ Sets field core := by
  simp only [Option.bind_eq_some_iff, Text.stated?_eq_some_iff, Sets]

end Selection

end TestSelection
