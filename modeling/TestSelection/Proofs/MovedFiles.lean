import Mathlib.Data.List.Basic
import TestSelection.Proofs.AscendingListings
import TestSelection.Proofs.ShownPaths

/-!
Listings of differences, and files that moved. Files are compared path by path, so each difference
is about one path, and its other side may say that there is no file. Then files that moved may be
looked for: what is deleted at one path and new at another one becomes a single difference with two
paths. Whatever is found to have moved, the paths are the same.
-/

namespace TestSelection

namespace Delta

variable {delta : Delta} {deltas others found merged : List Delta} {differs : Bytes → Prop}
  {path other : Bytes} {text : String}

/-- A path that stands for no file. -/
def IsPlaceholder (path : Bytes) : Prop := path = [] ∨ path = Text.bytes "/dev/null"

/-- A path is on one of the sides of a delta. -/
def HasSide (delta : Delta) (path : Bytes) : Prop := delta.old = some path ∨ delta.new = some path

/-- A path is on a side of one of the deltas. -/
def HaveSide (deltas : List Delta) (path : Bytes) : Prop := ∃ delta ∈ deltas, delta.HasSide path

/-- A delta is about a path: it has this path, and no other one that is the path of a file. -/
def IsAbout (delta : Delta) (path : Bytes) : Prop :=
  delta.HasSide path ∧ ∀ other, delta.HasSide other → other = path ∨ IsPlaceholder other

/-- The deltas are about exactly the paths that differ, each about one. -/
structure Lists (differs : Bytes → Prop) (deltas : List Delta) : Prop where
  about : ∀ delta ∈ deltas, ∃ path, differs path ∧ delta.IsAbout path
  covers : ∀ path, differs path → ∃ delta ∈ deltas, delta.IsAbout path

/-- Files that moved are found among differences: a deleted and a new file are joined, or the other
side of a new file is said to be one that differs as well. -/
inductive Moved : List Delta → List Delta → Prop
  | none {deltas merged : List Delta} (hperm : deltas.Perm merged) : Moved deltas merged
  | renamed {deltas rest merged : List Delta} {gone come : Delta} {old new : Bytes}
      (hpair : deltas.Perm (gone :: come :: rest)) (hold : gone.IsAbout old)
      (hnew : come.IsAbout new) (hmoved : Moved (⟨some old, some new⟩ :: rest) merged) :
      Moved deltas merged
  | copied {deltas rest merged : List Delta} {come : Delta} {old new : Bytes}
      (hcome : deltas.Perm (come :: rest)) (hnew : come.IsAbout new)
      (hold : HaveSide rest old) (hmoved : Moved (⟨some old, some new⟩ :: rest) merged) :
      Moved deltas merged

theorem mem_paths_iff : path ∈ delta.paths ↔ delta.HasSide path := by
  simp [paths, HasSide]

theorem mem_flatMap_paths_iff : path ∈ deltas.flatMap paths ↔ HaveSide deltas path := by
  simp only [List.mem_flatMap, mem_paths_iff, HaveSide]

theorem hasSide_mk {old new : Bytes} :
    HasSide ⟨some old, some new⟩ path ↔ old = path ∨ new = path := by
  simp [HasSide]

@[simp] theorem haveSide_cons :
    HaveSide (delta :: deltas) path ↔ delta.HasSide path ∨ HaveSide deltas path := by
  simp [HaveSide]

theorem haveSide_append :
    HaveSide (deltas ++ others) path ↔ HaveSide deltas path ∨ HaveSide others path := by
  simp [HaveSide, or_and_right, exists_or]

theorem haveSide_of_perm (hperm : deltas.Perm others) :
    HaveSide deltas path ↔ HaveSide others path := by
  simp only [HaveSide, hperm.mem_iff]

theorem IsAbout.hasSide_iff (h : delta.IsAbout path) (hfile : ¬ IsPlaceholder other) :
    delta.HasSide other ↔ other = path := by
  constructor
  · intro hother
    exact (h.2 other hother).resolve_right hfile
  · rintro rfl
    exact h.1

theorem isAbout_mk (path : Bytes) : IsAbout ⟨some path, some path⟩ path := by
  constructor
  · exact Or.inl rfl
  · intro other hother
    exact Or.inl ((hasSide_mk.mp hother).elim Eq.symm Eq.symm)

/-- The texts of differences are those of the paths on their sides. -/
theorem mem_texts_iff :
    text ∈ texts deltas ↔
      isStated text ∧ ∃ path, HaveSide deltas path ∧ Text.ofBytes path = text := by
  rw [texts, Ascending.mem_ofList, List.mem_filter, List.mem_map, and_comm]
  simp only [mem_flatMap_paths_iff]

theorem not_isPlaceholder_of_isStated (h : isStated (Text.ofBytes path)) :
    ¬ IsPlaceholder path := by
  intro hplaceholder
  rcases hplaceholder with rfl | rfl
  · have hempty : isStated (Text.ofBytes []) = false := by decide +kernel
    exact Bool.false_ne_true (hempty ▸ h)
  · have habsent : isStated (Text.ofBytes (Text.bytes "/dev/null")) = false := by decide +kernel
    exact Bool.false_ne_true (habsent ▸ h)

theorem texts_eq_of_sides_iff
    (h : ∀ path, ¬ IsPlaceholder path → (HaveSide deltas path ↔ HaveSide merged path)) :
    texts deltas = texts merged := by
  have hmem (text : String) : text ∈ texts deltas ↔ text ∈ texts merged := by
    rw [mem_texts_iff, mem_texts_iff]
    refine and_congr_right fun hstated => exists_congr fun path => and_congr_left fun hpath => ?_
    subst hpath
    exact h path (not_isPlaceholder_of_isStated hstated)
  exact Ascending.eq_of_mem_iff (Ascending.pairwise_ofList _) (Ascending.pairwise_ofList _) hmem

namespace Moved

theorem perm_left (h : Moved found merged) (hperm : deltas.Perm found) : Moved deltas merged := by
  cases h with
  | none hmerged => exact .none (hperm.trans hmerged)
  | renamed hpair hold hnew hmoved => exact .renamed (hperm.trans hpair) hold hnew hmoved
  | copied hcome hnew hold hmoved => exact .copied (hperm.trans hcome) hnew hold hmoved

theorem perm_right (h : Moved deltas found) (hperm : found.Perm merged) : Moved deltas merged := by
  induction h with
  | none hmerged => exact .none (hmerged.trans hperm)
  | renamed hpair hold hnew _ ih => exact .renamed hpair hold hnew (ih hperm)
  | copied hcome hnew hold _ ih => exact .copied hcome hnew hold (ih hperm)

theorem append (h : Moved found merged) (others : List Delta) :
    Moved (found ++ others) (merged ++ others) := by
  induction h with
  | none hperm => exact .none (hperm.append_right others)
  | renamed hpair hold hnew _ ih => exact .renamed (hpair.append_right others) hold hnew ih
  | copied hcome hnew hold _ ih =>
    exact .copied (hcome.append_right others) hnew (haveSide_append.mpr (Or.inl hold)) ih

/-- To find the files that moved loses no path of a file and adds none. -/
theorem haveSide_iff (h : Moved found merged) (hfile : ¬ IsPlaceholder path) :
    HaveSide found path ↔ HaveSide merged path := by
  induction h with
  | none hperm => exact haveSide_of_perm hperm
  | @renamed deltas rest merged gone come old new hpair hold hnew _ ih =>
    rw [← ih, haveSide_of_perm hpair, haveSide_cons, haveSide_cons, haveSide_cons, hasSide_mk,
      hold.hasSide_iff hfile, hnew.hasSide_iff hfile, or_assoc, eq_comm, @eq_comm _ path new]
  | @copied deltas rest merged come old new hcome hnew hold _ ih =>
    rw [← ih, haveSide_of_perm hcome, haveSide_cons, haveSide_cons, hasSide_mk,
      hnew.hasSide_iff hfile]
    constructor
    · intro hside
      rcases hside with h | h
      · exact Or.inl (Or.inr h.symm)
      · exact Or.inr h
    · intro hside
      rcases hside with (rfl | rfl) | h
      · exact Or.inr hold
      · exact Or.inl rfl
      · exact Or.inr h

theorem texts_eq (h : Moved found merged) : texts found = texts merged :=
  texts_eq_of_sides_iff fun _ => h.haveSide_iff

end Moved

namespace Lists

theorem append {alsoDiffers : Bytes → Prop} (h : Lists differs deltas)
    (hothers : Lists alsoDiffers others) :
    Lists (fun path => differs path ∨ alsoDiffers path) (deltas ++ others) := by
  constructor
  · intro delta hdelta
    rcases List.mem_append.mp hdelta with hdelta | hdelta
    · obtain ⟨path, hdiffers, habout⟩ := h.about delta hdelta
      exact ⟨path, Or.inl hdiffers, habout⟩
    · obtain ⟨path, hdiffers, habout⟩ := hothers.about delta hdelta
      exact ⟨path, Or.inr hdiffers, habout⟩
  · rintro path (hdiffers | hdiffers)
    · obtain ⟨delta, hdelta, habout⟩ := h.covers path hdiffers
      exact ⟨delta, List.mem_append_left _ hdelta, habout⟩
    · obtain ⟨delta, hdelta, habout⟩ := hothers.covers path hdiffers
      exact ⟨delta, List.mem_append_right _ hdelta, habout⟩

/-- Differences that have the same path on both sides are about these paths. -/
theorem of_paths (names : List Bytes) :
    Lists (· ∈ names) (names.map fun path => ⟨some path, some path⟩) := by
  constructor
  · intro delta hdelta
    obtain ⟨path, hpath, rfl⟩ := List.mem_map.mp hdelta
    exact ⟨path, hpath, isAbout_mk path⟩
  · intro path hpath
    exact ⟨_, List.mem_map_of_mem hpath, isAbout_mk path⟩

theorem haveSide_iff (h : Lists differs deltas) (hfile : ¬ IsPlaceholder path) :
    HaveSide deltas path ↔ differs path := by
  constructor
  · intro hside
    obtain ⟨delta, hdelta, hpath⟩ := hside
    obtain ⟨about, hdiffers, habout⟩ := h.about delta hdelta
    rwa [(habout.hasSide_iff hfile).mp hpath]
  · intro hdiffers
    obtain ⟨delta, hdelta, habout⟩ := h.covers path hdiffers
    exact ⟨delta, hdelta, habout.1⟩

/-- The texts of listed differences are those of the paths that differ. -/
theorem mem_texts_iff (h : Lists differs deltas) :
    text ∈ texts deltas ↔ isStated text ∧ ∃ path, differs path ∧ Text.ofBytes path = text := by
  rw [Delta.mem_texts_iff]
  refine and_congr_right fun hstated => exists_congr fun path => and_congr_left fun hpath => ?_
  subst hpath
  exact h.haveSide_iff (not_isPlaceholder_of_isStated hstated)

end Lists

end Delta

end TestSelection
