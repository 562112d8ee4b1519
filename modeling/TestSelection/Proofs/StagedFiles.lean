import TestSelection.Proofs.AscendingListings
import TestSelection.Proofs.FallibleSteps
import TestSelection.Proofs.ShownPaths
import TestSelection.Repository.Index

/-!
What is staged. An index that has been read stands in the order of its paths, so what it has for a
commit is looked up by them.
-/

namespace TestSelection

namespace Index

variable {index : Index} {path : Bytes} {entry : FileEntry}

/-- The entries stand in the order of their paths. -/
def Sorted (index : Index) : Prop := index.Pairwise fun first second => first.path ≤ second.path

/-- Each entry is there once, at a path that begins with a name, none is a repository, and for all
of them the working files are looked at. -/
structure Plain (index : Index) : Prop where
  distinct : (index.map fun indexed => (indexed.path, indexed.stage)).Nodup
  paths : ∀ indexed ∈ index, BeginsWithName indexed.path
  files : ∀ indexed ∈ index, indexed.entry.mode ≠ .submodule
  looked : ∀ indexed ∈ index, indexed.isAssumed = false

/-- The index has an entry for a commit at a path. -/
def HasEntry (index : Index) (path : Bytes) (entry : FileEntry) : Prop :=
  ∃ indexed ∈ index, indexed.path = path ∧ indexed.stage = 0 ∧ indexed.entry = entry

/-- The index has one of the entries that make up a conflict about a path. -/
def HasConflict (index : Index) (path : Bytes) : Prop :=
  ∃ indexed ∈ index, indexed.path = path ∧ indexed.stage ≠ 0

theorem isBefore_iff {first second : IndexEntry} : isBefore first second ↔
    first.path < second.path ∨ first.path = second.path ∧ first.stage ≤ second.stage := by
  simp [isBefore]

theorem sorted_ofEntries (entries : List IndexEntry) : Sorted (ofEntries entries) := by
  have htrans (a b c : IndexEntry) (hab : isBefore a b) (hbc : isBefore b c) : isBefore a c := by
    rw [isBefore_iff] at *
    rcases hab with hab | ⟨hab, hstage⟩
    · rcases hbc with hbc | ⟨hbc, _⟩
      · exact Or.inl (List.lt_trans hab hbc)
      · exact Or.inl (hbc ▸ hab)
    · rcases hbc with hbc | ⟨hbc, hnext⟩
      · exact Or.inl (hab ▸ hbc)
      · exact Or.inr ⟨hab.trans hbc, hstage.trans hnext⟩
  have htotal (a b : IndexEntry) : isBefore a b || isBefore b a := by
    rw [Bool.or_eq_true, isBefore_iff, isBefore_iff]
    by_cases hlt : a.path < b.path
    · exact Or.inl (Or.inl hlt)
    by_cases hgt : b.path < a.path
    · exact Or.inr (Or.inl hgt)
    have hpath : a.path = b.path := List.le_antisymm (List.not_lt.mp hgt) (List.not_lt.mp hlt)
    rcases Nat.le_total a.stage b.stage with hle | hle
    · exact Or.inl (Or.inr ⟨hpath, hle⟩)
    · exact Or.inr (Or.inr ⟨hpath.symm, hle⟩)
  refine (List.pairwise_mergeSort htrans htotal entries).imp ?_
  intro a b hbefore
  rcases isBefore_iff.mp hbefore with hlt | ⟨heq, _⟩
  · exact Std.le_of_lt hlt
  · exact heq ▸ List.le_refl _

/-- An index that has been read stands in order. -/
theorem sorted_of_read {content : ByteArray} (h : read content = .ok index) : Sorted index := by
  unfold read at h
  simp only at h
  split at h
  · cases h
  split at h
  · cases h
  split at h
  · cases h
  split at h
  · cases h
  · next entries _ _ =>
    obtain ⟨_, _, h⟩ := bind_eq_ok_iff.mp h
    split at h
    · exact Except.ok.inj h ▸ sorted_ofEntries entries
    · cases h

theorem mem_staged_iff : (path, entry) ∈ index.staged ↔ index.HasEntry path entry := by
  simp only [staged, HasEntry, List.mem_filterMap, Option.ite_none_right_eq_some,
    Option.some.injEq, Prod.mk.injEq, and_left_comm]

theorem mem_conflicts_iff : path ∈ index.conflicts ↔ index.HasConflict path := by
  simp only [conflicts, HasConflict, List.mem_filterMap, Option.ite_none_left_eq_some,
    Option.some.injEq, and_comm, ne_eq]

theorem Plain.assumed_eq_nil (hplain : Plain index) : index.assumed = [] := by
  apply List.filterMap_eq_nil_iff.mpr
  intro indexed hindexed
  rw [hplain.looked indexed hindexed]
  rfl

theorem listed_staged (hsorted : Sorted index) (hplain : Plain index) : Listed index.staged := by
  have hdistinct := List.pairwise_map.mp hplain.distinct
  refine List.pairwise_filterMap.mpr ((hsorted.and hdistinct).imp ?_)
  intro first second hpair file hfile other hother
  simp only [Option.ite_none_right_eq_some, Option.some.injEq] at hfile hother
  obtain ⟨hstage, rfl⟩ := hfile
  obtain ⟨hsame, rfl⟩ := hother
  refine Std.lt_of_le_of_ne hpair.1 ?_
  intro hpath
  exact hpair.2 (Prod.ext hpath (hstage.trans hsame.symm))

theorem lookup_staged_iff (hsorted : Sorted index) (hplain : Plain index) :
    index.staged.lookup path = some entry ↔ index.HasEntry path entry := by
  rw [(listed_staged hsorted hplain).lookup_eq_some_iff, mem_staged_iff]

end Index

end TestSelection
