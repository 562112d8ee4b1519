import TestSelection.Proofs.AscendingListings
import TestSelection.Proofs.FallibleSteps
import TestSelection.Proofs.HeldFiles
import TestSelection.Proofs.ListingDifferences

/-!
Listings of stored directories. To list a directory gives exactly the files that it holds, each path
once, so the entry at a path is found by looking the path up.
-/

namespace TestSelection

namespace StoredTree

/-- What a stored directory has in it: an entry with the mode of a directory stands for the
directory that is stored under its name, if this can be read. -/
def contents : Contents StoredTree := fun tree =>
  tree.entries.filterMap fun (name, entry) =>
    if entry.mode = .directory then
      (tree.read entry.id).toOption.map fun inner => (name, .directory ⟨tree.read, inner⟩)
    else some (name, .file entry)

variable {read : ObjectId → Except RepositoryFault (List TreeEntry)} {tree old new : StoredTree}
  {entries inner : List TreeEntry} {listing : Snapshot} {name path above : Bytes}
  {entry : FileEntry} {fuel : Nat}

theorem mem_contents_file_iff : (name, .file entry) ∈ contents ⟨read, entries⟩ ↔
    (name, entry) ∈ entries ∧ entry.mode ≠ .directory := by
  simp only [contents, List.mem_filterMap, Prod.exists]
  constructor
  · intro h
    obtain ⟨other, found, hmem, h⟩ := h
    split at h
    · simp at h
    · next hmode =>
      cases h
      exact ⟨hmem, hmode⟩
  · intro h
    obtain ⟨hmem, hmode⟩ := h
    exact ⟨name, entry, hmem, if_neg hmode⟩

theorem mem_contents_directory_iff {found : StoredTree} :
    (name, .directory found) ∈ contents ⟨read, entries⟩ ↔
      ∃ entry inner, (name, entry) ∈ entries ∧ entry.mode = .directory ∧
        read entry.id = .ok inner ∧ found = ⟨read, inner⟩ := by
  simp only [contents, List.mem_filterMap, Prod.exists]
  constructor
  · intro h
    obtain ⟨other, entry, hmem, h⟩ := h
    split at h
    · next hmode =>
      obtain ⟨inner, hinner, h⟩ := Option.map_eq_some_iff.mp h
      cases h
      exact ⟨entry, inner, hmem, hmode, toOption_eq_some_iff.mp hinner, rfl⟩
    · cases h
  · intro h
    obtain ⟨entry, inner, hmem, hmode, hinner, rfl⟩ := h
    exact ⟨name, entry, hmem, by simp [hmode, hinner, Except.toOption]⟩

/-- Where a directory can be listed, the paths listed are those of the files that it holds. -/
theorem mem_filesBelow_iff (h : filesBelow read fuel above entries = .ok listing) :
    (path, entry) ∈ listing ↔
      ∃ rest, path = above ++ rest ∧ Holds contents ⟨read, entries⟩ rest entry := by
  induction fuel generalizing above entries listing path with
  | zero => cases h
  | succ fuel ih =>
    obtain ⟨parts, hparts, rfl⟩ := map_eq_ok_iff.mp h
    rw [mem_flatten_of_mapM hparts]
    constructor
    · intro h
      obtain ⟨⟨name, found⟩, hmem, part, hpart, hentry⟩ := h
      split at hpart
      · next hmode =>
        obtain ⟨inner, hinner, hpart⟩ := bind_eq_ok_iff.mp hpart
        obtain ⟨rest, rfl, hholds⟩ := (ih hpart).mp hentry
        have hdirectory : (name, .directory ⟨read, inner⟩) ∈ contents ⟨read, entries⟩ :=
          mem_contents_directory_iff.mpr ⟨found, inner, hmem, hmode, hinner, rfl⟩
        exact ⟨_, by simp, Holds.inside hdirectory hholds⟩
      · next hfile =>
        cases hpart
        cases List.mem_singleton.mp hentry
        exact ⟨name, rfl, Holds.single (mem_contents_file_iff.mpr ⟨hmem, hfile⟩)⟩
    · intro h
      obtain ⟨rest, rfl, hholds⟩ := h
      rcases holds_iff.mp hholds with hmem | ⟨name, rest, found, rfl, hmem, hholds⟩
      · obtain ⟨hmem, hfile⟩ := mem_contents_file_iff.mp hmem
        exact ⟨_, hmem, _, if_neg hfile, List.mem_singleton.mpr rfl⟩
      · obtain ⟨directory, inner, hentry, hmode, hinner, rfl⟩ := mem_contents_directory_iff.mp hmem
        obtain ⟨part, hpart⟩ := exists_of_mapM hparts hentry
        rw [if_pos hmode, hinner] at hpart
        exact ⟨_, hentry, part, by rw [if_pos hmode, hinner]; exact hpart,
          (ih hpart).mpr ⟨rest, by simp, hholds⟩⟩

theorem listed_snapshot (h : tree.snapshot = .ok listing) : Listed listing := by
  obtain ⟨files, _, rfl⟩ := map_eq_ok_iff.mp h
  exact listed_ordered files

/-- The listing of a directory has the files that the directory holds. -/
theorem lookup_snapshot_iff (h : tree.snapshot = .ok listing) (hnamed : WellNamed contents tree) :
    listing.lookup path = some entry ↔ Holds contents tree path entry := by
  obtain ⟨files, hfiles, rfl⟩ := map_eq_ok_iff.mp h
  have hmem {path : Bytes} {entry : FileEntry} :
      (path, entry) ∈ files ↔ Holds contents tree path entry := by
    simpa using mem_filesBelow_iff hfiles
  rw [lookup_ordered_iff fun hfirst hsecond =>
    (hmem.mp hfirst).unique hnamed (hmem.mp hsecond), hmem]

/-- Two listings differ at the paths at which their directories hold different entries. -/
theorem lookup_ne_iff_holdApart {before after : Snapshot} (hold : WellNamed contents old)
    (hnew : WellNamed contents new) (hbefore : old.snapshot = .ok before)
    (hafter : new.snapshot = .ok after) :
    before.lookup path ≠ after.lookup path ↔ HoldApart contents old new path := by
  rw [HoldApart, ← not_forall, not_iff_not]
  simp only [← lookup_snapshot_iff hbefore hold, ← lookup_snapshot_iff hafter hnew]
  constructor
  · intro h entry
    rw [h]
  · intro h
    exact Option.ext h

theorem changesTo_eq_ok {before after : Snapshot} (hbefore : old.snapshot = .ok before)
    (hafter : new.snapshot = .ok after) :
    old.changesTo new = .ok (FileChange.between before after) :=
  bind_eq_ok_iff.mpr ⟨before, hbefore, map_eq_ok_iff.mpr ⟨after, hafter, rfl⟩⟩

/-- The changes from one directory to another one are about the paths at which they hold different
entries. -/
theorem lists_changesTo {changes : List FileChange} (hold : WellNamed contents old)
    (hnew : WellNamed contents new) (h : old.changesTo new = .ok changes) :
    Delta.Lists (HoldApart contents old new) (changes.map FileChange.delta) := by
  obtain ⟨before, hbefore, h⟩ := bind_eq_ok_iff.mp h
  obtain ⟨after, hafter, rfl⟩ := map_eq_ok_iff.mp h
  have hdiffers : (fun path => before.lookup path ≠ after.lookup path) =
      HoldApart contents old new :=
    funext fun _ => propext (lookup_ne_iff_holdApart hold hnew hbefore hafter)
  rw [← hdiffers]
  exact FileChange.lists_between (listed_snapshot hbefore) (listed_snapshot hafter)

section Listing

variable {first : TreeEntry} {rest : List TreeEntry} {found files : Snapshot}

theorem filesBelow_cons_file (hfile : first.2.mode ≠ .directory)
    (hrest : filesBelow read (fuel + 1) above rest = .ok files) :
    filesBelow read (fuel + 1) above (first :: rest) =
      .ok ((above ++ first.1, first.2) :: files) := by
  obtain ⟨parts, hparts, rfl⟩ := map_eq_ok_iff.mp hrest
  refine map_eq_ok_iff.mpr ⟨[(above ++ first.1, first.2)] :: parts, ?_, rfl⟩
  rw [List.mapM_cons, if_neg hfile, hparts]
  rfl

theorem filesBelow_cons_directory (hmode : first.2.mode = .directory)
    (hread : read first.2.id = .ok inner)
    (hinner : filesBelow read fuel (above ++ first.1 ++ [FileSystem.slash]) inner = .ok found)
    (hrest : filesBelow read (fuel + 1) above rest = .ok files) :
    filesBelow read (fuel + 1) above (first :: rest) = .ok (found ++ files) := by
  obtain ⟨parts, hparts, rfl⟩ := map_eq_ok_iff.mp hrest
  refine map_eq_ok_iff.mpr ⟨found :: parts, ?_, rfl⟩
  have hfirst : ((read first.2.id).bind fun below =>
      filesBelow read fuel (above ++ first.1 ++ [FileSystem.slash]) below) = .ok found := by
    rw [hread]
    exact hinner
  rw [List.mapM_cons, if_pos hmode, hfirst, hparts]
  rfl

/-- A directory without directories is listed by its entries. -/
theorem filesBelow_of_files (h : ∀ item ∈ entries, item.2.mode ≠ .directory) :
    filesBelow read (fuel + 1) above entries =
      .ok (entries.map fun item => (above ++ item.1, item.2)) := by
  induction entries with
  | nil => rfl
  | cons first rest ih =>
    obtain ⟨hfirst, hrest⟩ := List.forall_mem_cons.mp h
    exact filesBelow_cons_file hfirst (ih hrest)

/-- Where there are no directories, the names in a directory stand for its files. -/
theorem contents_of_files (hfiles : ∀ item ∈ entries, item.2.mode ≠ .directory) :
    contents ⟨read, entries⟩ = entries.map fun item => (item.1, .file item.2) := by
  induction entries with
  | nil => rfl
  | cons item rest ih =>
    obtain ⟨hitem, hfiles⟩ := List.forall_mem_cons.mp hfiles
    have hrest := ih hfiles
    simp only [contents] at hrest ⊢
    rw [List.filterMap_cons, if_neg hitem, hrest, List.map_cons]

theorem wellNamed_of_files (hfiles : ∀ item ∈ entries, item.2.mode ≠ .directory)
    (hnames : ∀ item ∈ entries, item.1 ≠ [] ∧ FileSystem.slash ∉ item.1)
    (hdistinct : (entries.map Prod.fst).Nodup) : WellNamed contents ⟨read, entries⟩ := by
  have hcontents : contents ⟨read, entries⟩ = entries.map fun item => (item.1, .file item.2) :=
    contents_of_files hfiles
  refine .mk ?_ ?_ ?_
  · rw [hcontents]
    intro item hitem
    obtain ⟨entry, hentry, rfl⟩ := List.mem_map.mp hitem
    exact hnames entry hentry
  · rw [hcontents, List.map_map]
    exact hdistinct
  · intro name inner hmem
    rw [hcontents] at hmem
    simp at hmem

end Listing

end StoredTree

end TestSelection
