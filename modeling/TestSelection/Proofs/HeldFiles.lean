import Mathlib
import TestSelection.Proofs.ShownPaths
import TestSelection.Repository.Object

/-!
What directories hold. A directory has names with files and with other directories, and it holds its
own files and those of the directories in it, at paths that say through which names they lead. Where
no name has a slash and each stands for one thing, there is one file at a path at most, and the path
begins with a name.
-/

namespace TestSelection

/-- What a name in a directory stands for. -/
inductive Held (Tree : Type)
  | file (entry : FileEntry)
  | directory (tree : Tree)

/-- The names in directories, with what they stand for. -/
abbrev Contents (Tree : Type) := Tree → List (Bytes × Held Tree)

variable {Tree : Type} {contents : Contents Tree} {tree inner old new : Tree}
  {name other path rest below : Bytes} {first second : Held Tree} {entry found : FileEntry}

/-- A directory holds a file at a path. -/
inductive Holds (contents : Contents Tree) : Tree → Bytes → FileEntry → Prop
  | single {tree : Tree} {name : Bytes} {entry : FileEntry}
      (hmem : (name, .file entry) ∈ contents tree) : Holds contents tree name entry
  | inside {tree inner : Tree} {name path : Bytes} {entry : FileEntry}
      (hmem : (name, .directory inner) ∈ contents tree) (hholds : Holds contents inner path entry) :
      Holds contents tree (name ++ [FileSystem.slash] ++ path) entry

/-- Two directories hold different entries at a path, or only one of them holds an entry there. -/
def HoldApart (contents : Contents Tree) (old new : Tree) (path : Bytes) : Prop :=
  ∃ entry, ¬ (Holds contents old path entry ↔ Holds contents new path entry)

/-- Two directories hold the same entries at all paths. -/
def HoldAlike (contents : Contents Tree) (old new : Tree) : Prop :=
  ∀ path entry, Holds contents old path entry ↔ Holds contents new path entry

/-- Every name in a directory is its own and has no slash, and so it is in the directories in it. -/
inductive WellNamed (contents : Contents Tree) : Tree → Prop
  | mk {tree : Tree} (hnames : ∀ item ∈ contents tree, item.1 ≠ [] ∧ FileSystem.slash ∉ item.1)
      (hdistinct : ((contents tree).map Prod.fst).Nodup)
      (hinside : ∀ name inner, (name, .directory inner) ∈ contents tree →
        WellNamed contents inner) : WellNamed contents tree

namespace WellNamed

theorem beginsWithName (h : WellNamed contents tree) (hmem : (name, first) ∈ contents tree) :
    BeginsWithName name := by
  obtain ⟨hnames, _, _⟩ := h
  obtain ⟨hname, hslash⟩ := hnames _ hmem
  exact .of_name hname hslash

theorem slash_notMem (h : WellNamed contents tree) (hmem : (name, first) ∈ contents tree) :
    FileSystem.slash ∉ name := by
  obtain ⟨hnames, _, _⟩ := h
  exact (hnames _ hmem).2

theorem eq_of_mem (h : WellNamed contents tree) (hfirst : (name, first) ∈ contents tree)
    (hsecond : (name, second) ∈ contents tree) : first = second := by
  obtain ⟨_, hdistinct, _⟩ := h
  have hsame := List.inj_on_of_nodup_map hdistinct hfirst hsecond rfl
  exact (Prod.mk.inj hsame).2

theorem inside (h : WellNamed contents tree) (hmem : (name, .directory inner) ∈ contents tree) :
    WellNamed contents inner := by
  obtain ⟨_, _, hinside⟩ := h
  exact hinside name inner hmem

end WellNamed

theorem holds_iff : Holds contents tree path entry ↔
    (path, .file entry) ∈ contents tree ∨
      ∃ name rest inner, path = name ++ [FileSystem.slash] ++ rest ∧
        (name, .directory inner) ∈ contents tree ∧ Holds contents inner rest entry := by
  constructor
  · intro h
    cases h with
    | single hmem => exact Or.inl hmem
    | inside hmem hholds => exact Or.inr ⟨_, _, _, rfl, hmem, hholds⟩
  · intro h
    rcases h with hmem | ⟨name, rest, inner, rfl, hmem, hholds⟩
    · exact Holds.single hmem
    · exact Holds.inside hmem hholds

/-- A path says which name it begins with. -/
theorem eq_of_paths_eq (hname : FileSystem.slash ∉ name) (hother : FileSystem.slash ∉ other)
    (h : name ++ [FileSystem.slash] ++ rest = other ++ [FileSystem.slash] ++ below) :
    name = other ∧ rest = below := by
  have hfront (name rest : Bytes) (hname : FileSystem.slash ∉ name) :
      (name ++ [FileSystem.slash] ++ rest).takeWhile (· ≠ FileSystem.slash) = name := by
    rw [List.append_assoc, List.takeWhile_append_of_pos]
    · simp
    · intro b hb
      exact decide_eq_true fun hslash => hname (hslash ▸ hb)
  have hnames : name = other := by rw [← hfront name rest hname, h, hfront other below hother]
  rw [hnames] at h
  exact ⟨hnames, List.append_cancel_left h⟩

/-- There is one file at a path at most. -/
theorem Holds.unique (hnamed : WellNamed contents tree) (hfirst : Holds contents tree path entry)
    (hsecond : Holds contents tree path found) : entry = found := by
  induction hfirst with
  | single hmem =>
    rcases holds_iff.mp hsecond with hother | ⟨name, rest, _, hpath, _⟩
    · exact Held.file.inj (hnamed.eq_of_mem hmem hother)
    · exact absurd (by simp [hpath]) (hnamed.slash_notMem hmem)
  | inside hmem hholds ih =>
    rcases holds_iff.mp hsecond with hother | ⟨other, below, _, hpath, hother, hbelow⟩
    · exact absurd (by simp) (hnamed.slash_notMem hother)
    · obtain ⟨rfl, rfl⟩ :=
        eq_of_paths_eq (hnamed.slash_notMem hmem) (hnamed.slash_notMem hother) hpath
      obtain rfl := Held.directory.inj (hnamed.eq_of_mem hmem hother)
      exact ih (hnamed.inside hmem) hbelow

theorem Holds.beginsWithName (hnamed : WellNamed contents tree)
    (hholds : Holds contents tree path entry) : BeginsWithName path := by
  rcases holds_iff.mp hholds with hmem | ⟨name, rest, _, rfl, hmem, _⟩
  · exact hnamed.beginsWithName hmem
  · exact ((hnamed.beginsWithName hmem).append _).append _

namespace HoldApart

theorem beginsWithName (hold : WellNamed contents old) (hnew : WellNamed contents new)
    (h : HoldApart contents old new path) : BeginsWithName path := by
  obtain ⟨entry, h⟩ := h
  by_cases hholds : Holds contents old path entry
  · exact hholds.beginsWithName hold
  · have hother : Holds contents new path entry := by tauto
    exact hother.beginsWithName hnew

end HoldApart

theorem holdApart_comm : HoldApart contents old new path ↔ HoldApart contents new old path := by
  simp only [HoldApart, iff_comm]

/-- Directories that hold the same entries differ in the same way from others. -/
theorem HoldAlike.holdApart_iff {before after : Tree} (hold : HoldAlike contents old before)
    (hnew : HoldAlike contents new after) :
    HoldApart contents old new path ↔ HoldApart contents before after path := by
  simp only [HoldApart, hold path, hnew path]

theorem HoldAlike.not_holdApart (h : HoldAlike contents old new) :
    ¬ HoldApart contents old new path := by
  intro hapart
  obtain ⟨entry, hdiffer⟩ := hapart
  exact hdiffer (h path entry)

end TestSelection
