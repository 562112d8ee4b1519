import TestSelection.Candidate
import TestSelection.Proofs.Segments

/-!
The texts of test candidates. A text is a test identity in one way at most: the first `#` in it ends
the class, since no class has one, and everything behind it is the method. So reading an identity
and writing the candidate undo each other, and the package and the last segment of the class make up
the class again.
-/

namespace TestSelection.TestCandidate

variable {text className method : String} {candidate other : TestCandidate}

/-- The text is the identity of a class: it has no `#`, and its segments are not empty and hold no
blank character. -/
structure IsClass (text : String) : Prop where
  unmarked : '#' ∉ text.toList
  segments : ∀ segment ∈ Text.segments text, segment ≠ [] ∧ ∀ c ∈ segment, ¬ Text.isBlank c

/-- The text is that of a class alone, or that of a class and a method behind a `#`. -/
inductive Writes : String → TestCandidate → Prop
  | ofClass {className : String} (hclass : IsClass className) : Writes className ⟨className, none⟩
  | ofMethod {className method : String} (hclass : IsClass className) (hmethod : method ≠ "") :
    Writes (className ++ "#" ++ method) ⟨className, some method⟩

theorem isClassName_iff : isClassName text.toList = true ↔
    ∀ segment ∈ Text.segments text, segment ≠ [] ∧ ∀ c ∈ segment, ¬ Text.isBlank c := by
  rw [isClassName, List.all_eq_true]
  simp only [Bool.and_eq_true, Bool.not_eq_true', List.isEmpty_eq_false_iff, List.all_eq_true,
    Text.segments, Bool.not_eq_true]

theorem cutFirst_of_method (h : '#' ∉ className.toList) (method : String) :
    Text.cutFirst '#' (className ++ "#" ++ method).toList =
      some (className.toList, method.toList) :=
  Text.cutFirst_eq_some_iff.mpr ⟨by simp [String.toList_append], h⟩

theorem parse?_of_writes (h : Writes text candidate) : parse? text = some candidate := by
  cases h with
  | ofClass hclass =>
    have hcut : Text.cutFirst '#' text.toList = none :=
      Text.cutFirst_eq_none_iff.mpr hclass.unmarked
    have hname : isClassName text.toList = true := isClassName_iff.mpr hclass.segments
    simp only [parse?, hcut, hname, if_true]
  | @ofMethod className method hclass hmethod =>
    have hcut := cutFirst_of_method hclass.unmarked method
    have hname : isClassName className.toList = true := isClassName_iff.mpr hclass.segments
    have hstated : method.toList.isEmpty = false := by
      rw [List.isEmpty_eq_false_iff]
      exact fun hnone => hmethod (String.toList_eq_nil_iff.mp hnone)
    simp only [parse?, hcut, hname, hstated, Bool.not_false, Bool.and_self, if_true,
      String.ofList_toList]

theorem writes_of_parse? (h : parse? text = some candidate) : Writes text candidate := by
  unfold parse? at h
  split at h
  · next hcut =>
    split at h
    · next hname =>
      obtain rfl := Option.some.inj h
      exact .ofClass ⟨Text.cutFirst_eq_none_iff.mp hcut, isClassName_iff.mp hname⟩
    · cases h
  · next before after hcut =>
    obtain ⟨htext, hunmarked⟩ := Text.cutFirst_eq_some_iff.mp hcut
    split at h
    · next hparts =>
      obtain rfl := Option.some.inj h
      rw [Bool.and_eq_true, Bool.not_eq_true', List.isEmpty_eq_false_iff] at hparts
      obtain ⟨hname, hstated⟩ := hparts
      have hclass : IsClass (String.ofList before) := by
        constructor
        · rwa [String.toList_ofList]
        · rw [← isClassName_iff, String.toList_ofList]
          exact hname
      have hmethod : String.ofList after ≠ "" := by
        intro hnone
        apply hstated
        rw [← String.toList_ofList (l := after), hnone]
        rfl
      have hwritten : text = String.ofList before ++ "#" ++ String.ofList after := by
        apply String.toList_inj.mp
        rw [htext]
        simp [String.toList_append]
      rw [hwritten]
      exact .ofMethod hclass hmethod
    · cases h

theorem parse?_eq_some_iff : parse? text = some candidate ↔ Writes text candidate :=
  ⟨writes_of_parse?, parse?_of_writes⟩

theorem Writes.text_eq (h : Writes text candidate) : candidate.text = text := by
  cases h with
  | ofClass _ => rfl
  | ofMethod _ _ => rfl

theorem Writes.isClass (h : Writes text candidate) : IsClass candidate.className := by
  cases h with
  | ofClass hclass => exact hclass
  | ofMethod hclass _ => exact hclass

/-- The package and the last segment make up a class: where there is one segment only, it is the
class, and the package is empty. -/
structure MadeUpOf (className package last : String) : Prop where
  segment : (Text.segments className).getLast? = some last.toList
  empty_iff : package = "" ↔ (Text.segments className).length = 1
  eq : className = if package = "" then last else package ++ "." ++ last

theorem madeUpOf_packageOf (h : IsClass className) :
    ∃ last, MadeUpOf className (packageOf className) last := by
  rcases packageOf_cases className with ⟨_, hpackage, hsegments⟩ | ⟨last, htext, _, hsegments⟩
  · refine ⟨className, ⟨?_, ?_, ?_⟩⟩
    · rw [hsegments]
      rfl
    · simp [hpackage, hsegments]
    · rw [if_pos hpackage]
  -- An empty package in front of a dot would be an empty segment of the class.
  · have hnonempty : packageOf className ≠ "" := by
      intro hempty
      have hfirst : [] ∈ Text.segments className := by
        rw [hsegments, hempty]
        simp [Text.segments]
      exact (h.segments [] hfirst).1 rfl
    refine ⟨last, ⟨?_, ?_, ?_⟩⟩
    · rw [hsegments, List.getLast?_concat]
    · have hlength := List.length_pos_iff.mpr (Text.segments_ne_nil (packageOf className))
      rw [hsegments, List.length_append, List.length_singleton]
      constructor
      · intro hempty
        exact absurd hempty hnonempty
      · intro hsingle
        omega
    · rw [if_neg hnonempty]
      exact htext

/-- A text is read as a candidate if and only if it is that of a class, or of a class and a method
that is not empty behind the first `#`, and then as the candidate with this class and this method. A
candidate that is read is written as the text that it was read from, so no two texts are read as the
same one, and the package and the last segment of its class make up the class. -/
theorem parse_by_grammar (text : String) :
    (∀ candidate, parse? text = some candidate ↔ Writes text candidate) ∧
    ∀ candidate, parse? text = some candidate →
      candidate.text = text ∧
      (∃ last, MadeUpOf candidate.className candidate.package last) ∧
      ∀ other, parse? other = some candidate → other = text := by
  refine ⟨fun candidate => parse?_eq_some_iff, ?_⟩
  intro candidate h
  have hwrites : Writes text candidate := parse?_eq_some_iff.mp h
  refine ⟨hwrites.text_eq, madeUpOf_packageOf hwrites.isClass, ?_⟩
  intro other hother
  have hagain : Writes other candidate := parse?_eq_some_iff.mp hother
  rw [← hagain.text_eq, hwrites.text_eq]

example : parse? "a.b.OrderTest#rejects # twice" =
    some ⟨"a.b.OrderTest", some "rejects # twice"⟩ := by cbv

end TestSelection.TestCandidate
