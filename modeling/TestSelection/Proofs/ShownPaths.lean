import Mathlib
import TestSelection.FileSystem.Basic
import TestSelection.Repository.Delta

/-!
Paths of files as texts. The path of a file begins with a name, and a slash is shown for no other
byte, so its text is neither the empty one nor that of the missing side of a difference.
-/

namespace TestSelection

namespace Text

variable {first low high : UInt8} {rest encoded : Bytes} {start missing : Nat}

theorem eq_of_ofNat_eq_slash {code : Nat} (h : Char.ofNat code = '/') : code = 47 := by
  have hcode := congrArg Char.toNat h
  rw [Char.toNat_ofNat] at hcode
  split at hcode
  · exact hcode
  · cases hcode

/-- Bytes that continue a character add to the number that its first byte begins. -/
theorem le_foldl_continued (start : Nat) (taken : Bytes) :
    start * 64 ^ taken.length ≤ taken.foldl (fun code b => code * 64 + b.toNat % 64) start := by
  induction taken generalizing start with
  | nil => simp
  | cons b taken ih =>
    rw [List.foldl_cons, List.length_cons]
    have hnext := ih (start * 64 + b.toNat % 64)
    calc start * 64 ^ (taken.length + 1) = start * 64 * 64 ^ taken.length := by ring
      _ ≤ (start * 64 + b.toNat % 64) * 64 ^ taken.length :=
        Nat.mul_le_mul_right _ (Nat.le_add_right _ _)
      _ ≤ _ := hnext

/-- A byte is a character, or it begins one with bits of its own, or the byte behind it has to be a
large one. -/
theorem opening?_cases (h : opening? first = some (start, missing, low, high)) :
    (missing = 0 ∧ start = first.toNat) ∨ (0 < missing ∧ 0 < start) ∨
      (2 ≤ missing ∧ 0x90 ≤ low.toNat ∧ high.toNat ≤ 0xBF) := by
  unfold opening? at h
  simp only [UInt8.lt_iff_toNat_lt, ← UInt8.toNat_inj, UInt8.reduceToNat] at h
  repeat' split at h
  all_goals cases h
  all_goals simp <;> omega

theorem continuation_cases (hmissing : 2 ≤ missing) (hlow : 0x90 ≤ low.toNat)
    (hhigh : high.toNat ≤ 0xBF) (h : (continuation missing low high rest).length = missing) :
    ∃ b more, continuation missing low high rest = b :: more ∧ more ≠ [] ∧ 16 ≤ b.toNat % 64 := by
  obtain ⟨missing, rfl⟩ : ∃ fewer, missing = fewer + 2 := ⟨missing - 2, by omega⟩
  cases rest with
  | nil => simp [continuation] at h
  | cons b rest =>
    rw [continuation] at h ⊢
    split at h
    · next hbetween =>
      rw [if_pos hbetween]
      simp only [Bool.and_eq_true, decide_eq_true_eq, UInt8.le_iff_toNat_le] at hbetween
      refine ⟨b, _, rfl, ?_, by omega⟩
      intro hnone
      rw [hnone] at h
      simp at h
    · simp at h

/-- A slash is shown for the byte of a slash and for nothing else. -/
theorem eq_slash_of_shown (h : (shown first rest).1 = '/') : first = FileSystem.slash := by
  have hreplaced : replacement ≠ '/' := by decide
  unfold shown at h
  split at h
  · exact absurd h hreplaced
  · next start missing low high hopening =>
    simp only at h
    split at h
    · next hlength =>
      have hcode := eq_of_ofNat_eq_slash h
      rcases opening?_cases hopening with ⟨hnone, hstart⟩ | ⟨hsome, hstart⟩ | ⟨hmany, hlow, hhigh⟩
      · have htaken : continuation missing low high rest = [] :=
          List.length_eq_zero_iff.mp (hlength.trans hnone)
        rw [htaken, List.foldl_nil, hstart] at hcode
        exact UInt8.toNat_inj.mp hcode
      -- The number of a character of more bytes is larger than that of a slash.
      · have hbound := le_foldl_continued start (continuation missing low high rest)
        rw [hcode, hlength] at hbound
        have hpower : 64 ^ 1 ≤ 64 ^ missing := Nat.pow_le_pow_right (by decide) hsome
        have hleast : 1 * 64 ^ 1 ≤ start * 64 ^ missing := Nat.mul_le_mul hstart hpower
        omega
      · obtain ⟨b, more, htaken, hmore, hb⟩ := continuation_cases hmany hlow hhigh hlength
        rw [htaken, List.foldl_cons] at hcode
        have hbound := le_foldl_continued (start * 64 + b.toNat % 64) more
        rw [hcode] at hbound
        have hpower : 64 ^ 1 ≤ 64 ^ more.length :=
          Nat.pow_le_pow_right (by decide) (List.length_pos_of_ne_nil hmore)
        have hleast : 16 * 64 ^ 1 ≤ (start * 64 + b.toNat % 64) * 64 ^ more.length :=
          Nat.mul_le_mul (by omega) hpower
        omega
    · exact absurd h hreplaced

end Text

/-- A path begins with a name. -/
def BeginsWithName (path : Bytes) : Prop :=
  ∃ first, path.head? = some first ∧ first ≠ FileSystem.slash

namespace BeginsWithName

open Text

variable {path name rest : Bytes}

theorem iff_any : BeginsWithName path ↔ path.head?.any (· ≠ FileSystem.slash) = true := by
  simp [BeginsWithName, Option.any_eq_true]

instance : Decidable (BeginsWithName path) := decidable_of_iff _ iff_any.symm

theorem append (h : BeginsWithName path) (rest : Bytes) : BeginsWithName (path ++ rest) := by
  obtain ⟨first, hfirst, hslash⟩ := h
  obtain ⟨more, rfl⟩ := List.head?_eq_some_iff.mp hfirst
  exact ⟨first, rfl, hslash⟩

theorem of_name (hname : name ≠ []) (hslash : FileSystem.slash ∉ name) : BeginsWithName name := by
  obtain ⟨first, more, rfl⟩ := List.exists_cons_of_ne_nil hname
  exact ⟨first, rfl, fun h => hslash (h ▸ List.mem_cons_self)⟩

/-- A path that begins with a name is shown without a slash at its start. -/
theorem isStated (h : BeginsWithName path) : Delta.isStated (ofBytes path) := by
  obtain ⟨first, hfirst, hslash⟩ := h
  obtain ⟨rest, rfl⟩ := List.head?_eq_some_iff.mp hfirst
  have hshown : (ofBytes (first :: rest)).toList =
      (shown first rest).1 :: shownChars (rest.drop (shown first rest).2) := by
    rw [ofBytes, String.toList_ofList, shownChars]
  have hempty : ofBytes (first :: rest) ≠ "" := by
    intro h
    rw [h] at hshown
    cases hshown
  have habsent : ofBytes (first :: rest) ≠ absentPath := by
    intro h
    rw [h] at hshown
    have hhead : '/' = (shown first rest).1 := (List.cons.inj hshown).1
    exact hslash (eq_slash_of_shown hhead.symm)
  simp [Delta.isStated, isAbsent, hempty, habsent]

end BeginsWithName

end TestSelection
