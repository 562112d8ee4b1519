import TestSelection.Module.Package
import TestSelection.Proofs.Cuts

/-!
Nesting of dotted packages. The test that a graph applies to a package and a base is a nesting
relation on whole segments, and a chain of packages nested in one another is nested from end to
end. Taking the package of an identity cuts at the last dot, so it never leaves the package that
stands in front of a dot of the identity, however many dots follow.
-/

namespace TestSelection

/-- `package` is `base` or continues it behind a dot. -/
def LiesIn (package base : String) : Prop := package = base ∨ ∃ rest, package = base ++ "." ++ rest

theorem LiesIn.trans {first second third : String} (hfirst : LiesIn first second)
    (hsecond : LiesIn second third) : LiesIn first third := by
  rcases hfirst with rfl | ⟨inner, rfl⟩
  · exact hsecond
  · rcases hsecond with rfl | ⟨outer, rfl⟩
    · exact Or.inr ⟨inner, rfl⟩
    · exact Or.inr ⟨outer ++ "." ++ inner, by simp only [String.append_assoc]⟩

theorem liesIn_iff_toList {package base : String} : LiesIn package base ↔
    package.toList = base.toList ∨ ∃ rest, package.toList = base.toList ++ '.' :: rest := by
  constructor
  · intro h
    rcases h with rfl | ⟨rest, rfl⟩
    · exact Or.inl rfl
    · exact Or.inr ⟨rest.toList, by simp [String.toList_append]⟩
  · intro h
    rcases h with htext | ⟨rest, htext⟩
    · exact Or.inl (String.toList_inj.mp htext)
    · refine Or.inr ⟨String.ofList rest, String.toList_inj.mp ?_⟩
      rw [htext]
      simp [String.toList_append]

theorem isWithin_iff_liesIn {package base : String} :
    isWithin package base = true ↔ LiesIn package base := by
  rw [liesIn_iff_toList]
  unfold isWithin
  constructor
  · intro h
    split at h
    · cases h
    · next hrest =>
      have htext := Text.dropStart?_eq_some_iff.mp hrest
      exact Or.inl (htext.trans (List.append_nil _))
    · next c rest hrest =>
      have hc : c = '.' := of_decide_eq_true h
      rw [hc] at hrest
      exact Or.inr ⟨rest, Text.dropStart?_eq_some_iff.mp hrest⟩
  · intro h
    rcases h with htext | ⟨rest, htext⟩
    · have hrest : Text.dropStart? base.toList package.toList = some [] :=
        Text.dropStart?_eq_some_iff.mpr (htext.trans (List.append_nil _).symm)
      rw [hrest]
    · rw [Text.dropStart?_eq_some_iff.mpr htext]
      exact decide_eq_true rfl

theorem packageOf_append (package : String) {name : String} (h : '.' ∉ name.toList) :
    packageOf (package ++ "." ++ name) = package := by
  have hcut : Text.cutLast '.' (package ++ "." ++ name).toList =
      some (package.toList, name.toList) :=
    Text.cutLast_eq_some_iff.mpr ⟨by simp [String.toList_append], h⟩
  unfold packageOf
  rw [hcut]
  simp

/-- A text with a dot in it has a last one. -/
theorem exists_last_dot {text : String} (h : '.' ∈ text.toList) :
    ∃ before after, text = before ++ "." ++ after ∧ '.' ∉ after.toList := by
  cases hcut : Text.cutLast '.' text.toList with
  | none => exact absurd h (Text.cutLast_eq_none_iff.mp hcut)
  | some found =>
    obtain ⟨before, after⟩ := found
    obtain ⟨htext, hafter⟩ := Text.cutLast_eq_some_iff.mp hcut
    refine ⟨String.ofList before, String.ofList after, String.toList_inj.mp ?_, ?_⟩
    · simpa [String.toList_append] using htext
    · simpa using hafter

/-- The package of an identity lies in whatever stands in front of a dot of the identity, also when
that is not the last dot. -/
theorem packageOf_liesIn (package name : String) :
    LiesIn (packageOf (package ++ "." ++ name)) package := by
  by_cases hdot : '.' ∈ name.toList
  · obtain ⟨before, after, rfl, hafter⟩ := exists_last_dot hdot
    have hsplit : package ++ "." ++ (before ++ "." ++ after) =
        package ++ "." ++ before ++ "." ++ after := by
      simp only [String.append_assoc]
    rw [hsplit, packageOf_append _ hafter]
    exact Or.inr ⟨before, rfl⟩
  · rw [packageOf_append package hdot]
    exact Or.inl rfl

end TestSelection
