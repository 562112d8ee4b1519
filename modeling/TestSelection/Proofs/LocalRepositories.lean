import TestSelection.Proofs.StagedFiles
import TestSelection.Proofs.UncommittedFiles
import TestSelection.Proofs.WorkingFiles
import TestSelection.Repository.Local

/-!
The library that reads the repositories of a file system. It compares directories path by path, and
it lists states that tell how files differ. So what is relied on of a library holds of this one.
-/

namespace TestSelection.Repository

open Worktree

variable {files : FileSystem} {repository : Repository} {root : Location} {tree : Worktree}
  {committed : Option (List TreeEntry)} {listing staged : Snapshot} {index : Index} {path : Bytes}
  {entry : FileEntry}

theorem comparesTrees : (library files).ComparesTrees StoredTree.contents where
  compare hold hnew h := StoredTree.lists_changesTo hold hnew (mapError_eq_ok_iff.mp h)
  joined h := Except.ok.inj h ▸ FileChange.moved_joined _

/-- The last commit has the directory `committed`, or there is no commit yet. -/
def HeadHas (repository : Repository) : Option (List TreeEntry) → Prop
  | some entries =>
    (repository.headReference.bind fun head => repository.treeOf head.direct) = .ok entries
  | none => ∃ fault, fault.isMissing ∧
    (repository.headReference.bind fun head => repository.treeOf head.direct) = .error fault

/-- The last commit has the directory `committed`, the index is `index`, and the working files are
in the directory `root`. Files have names, and neither the index nor the working files have other
repositories in them. -/
structure StandsAt (repository : Repository) (root : Location)
    (committed : Option (List TreeEntry)) (index : Index) : Prop where
  worktree : repository.worktree = some root
  head : repository.HeadHas committed
  listed : ∀ entries, committed = some entries →
    ∃ listing, (repository.tree entries).snapshot = .ok listing
  indexed : repository.index = .ok index
  named : ∀ entries, committed = some entries →
    WellNamed StoredTree.contents (repository.tree entries)
  plain : index.Plain
  placed : repository.files.WellPlaced
  unnested : Unnested repository.files root

/-- What a repository holds whose working files are in the directory `root`. -/
def stateAt (repository : Repository) (root : Location) (committed : Option (List TreeEntry))
    (index : Index) : RepositoryState StoredTree where
  contents := StoredTree.contents
  head := committed.map repository.tree
  staged := index.HasEntry
  conflicted := index.HasConflict
  working := HasFile repository.files root (repository.worktreeAt root index).stored
  ignored := LeftOut (repository.worktreeAt root index).rules (index.map (·.path))
  keepsModes := repository.keepsModes = true

theorem sorted_index (h : repository.index = .ok index) : index.Sorted := by
  unfold Repository.index at h
  split at h
  · cases h
    exact List.Pairwise.nil
  · exact Index.sorted_of_read h

/-- Where the index has no repositories, the working files are those whose content can be stored. -/
theorem workingFiles_eq (hstaged : Listed staged) (htree : Listed tree.files)
    (hfiles : ∀ file ∈ staged, file.2.mode ≠ .submodule) :
    workingFiles tree staged = (FileChange.join staged tree.files).filterMap fun place =>
      (place.2.2.bind (entryOf (tree.stored place.1))).map fun entry => (place.1, entry) := by
  refine List.filterMap_congr fun ⟨path, before, found⟩ hplace => ?_
  obtain ⟨hbefore, _, _⟩ := (mem_join_iff hstaged htree).mp hplace
  simp only
  cases found.bind (entryOf (tree.stored path)) with
  | some entry => rfl
  | none =>
    cases found with
    | none => rfl
    | some node =>
      cases before with
      | none => rfl
      | some entry => exact if_neg (hfiles _ (hstaged.lookup_eq_some_iff.mp hbefore.symm))

/-- A working file is listed as the entry that its content would have in the index. -/
theorem listed_workingFiles (hstaged : Listed staged) (htree : Listed tree.files)
    (hfiles : ∀ file ∈ staged, file.2.mode ≠ .submodule) :
    Listed (workingFiles tree staged) ∧ ∀ path entry,
      (workingFiles tree staged).lookup path = some entry ↔
        (tree.files.lookup path).bind (entryOf (tree.stored path)) = some entry := by
  have heq := workingFiles_eq hstaged htree hfiles
  have hlisted : Listed (workingFiles tree staged) := by
    rw [heq]
    refine List.pairwise_filterMap.mpr ((listed_join hstaged htree).imp ?_)
    intro first second hlt file hfile other hother
    obtain ⟨_, _, rfl⟩ := Option.map_eq_some_iff.mp hfile
    obtain ⟨_, _, rfl⟩ := Option.map_eq_some_iff.mp hother
    exact hlt
  refine ⟨hlisted, fun path entry => ?_⟩
  rw [hlisted.lookup_eq_some_iff, heq, mem_found_iff (fun path _ found =>
    (found.bind (entryOf (tree.stored path))).map fun entry => (path, entry)) hstaged htree
    fun _ => rfl]
  constructor
  · intro h
    obtain ⟨other, hfound⟩ := h
    obtain ⟨held, hheld, hplace⟩ := Option.map_eq_some_iff.mp hfound
    obtain ⟨rfl, rfl⟩ := Prod.mk.inj hplace
    exact hheld
  · intro hheld
    exact ⟨path, Option.map_eq_some_iff.mpr ⟨entry, hheld, rfl⟩⟩

namespace StandsAt

variable (h : repository.StandsAt root committed index)

include h

theorem listed_staged : Listed index.staged :=
  Index.listed_staged (sorted_index h.indexed) h.plain

theorem exists_headSnapshot : ∃ listing, repository.headSnapshot = .ok listing ∧ Listed listing ∧
    ∀ path entry, listing.lookup path = some entry ↔
      (repository.stateAt root committed index).Committed path entry := by
  have hhead := h.head
  cases hcommitted : committed with
  | some entries =>
    rw [hcommitted] at hhead
    obtain ⟨listing, hlisting⟩ := h.listed entries hcommitted
    refine ⟨listing, ?_, StoredTree.listed_snapshot hlisting, fun path entry => ?_⟩
    · rw [headSnapshot, hhead]
      exact hlisting
    · rw [StoredTree.lookup_snapshot_iff hlisting (h.named entries hcommitted)]
      simp [stateAt, RepositoryState.Committed]
  | none =>
    rw [hcommitted] at hhead
    obtain ⟨fault, hmissing, hfault⟩ := hhead
    refine ⟨[], ?_, List.Pairwise.nil, fun path entry => ?_⟩
    · simp only [headSnapshot, hfault, hmissing, if_true]
    · simp [stateAt, RepositoryState.Committed]

theorem shows_listings (hordered : Listed listing)
    (hcommitted : ∀ path entry, listing.lookup path = some entry ↔
      (repository.stateAt root committed index).Committed path entry) :
    (repository.listings root listing index).Shows (repository.stateAt root committed index) := by
  have hfiles : ∀ file ∈ index.staged, file.2.mode ≠ .submodule := by
    intro file hfile
    obtain ⟨indexed, hindexed, _, _, hentry⟩ := Index.mem_staged_iff.mp hfile
    exact hentry ▸ h.plain.files indexed hindexed
  have hnested : (repository.worktreeAt root index).nested = [] := nestedUnder_eq_nil h.unnested
  have htree : Listed (repository.worktreeAt root index).files := listed_ordered _
  obtain ⟨hworking, hlookup⟩ := listed_workingFiles h.listed_staged htree hfiles
  constructor
  case ordered => exact ⟨hordered, h.listed_staged, hworking⟩
  case committed => exact hcommitted
  case staged => exact fun _ _ => Index.lookup_staged_iff (sorted_index h.indexed) h.plain
  case conflicts => exact fun _ => Index.mem_conflicts_iff
  case working =>
    intro path entry
    rw [listings, hlookup, Option.bind_eq_some_iff]
    simp only [lookup_worktreeAt_iff h.placed]
    rfl
  case kept => exact fun _ => isNew_iff hnested
  case assumed =>
    intro path
    rw [listings, h.plain.assumed_eq_nil]
    rfl
  case repositories =>
    rw [listings, newRepositories, hnested]
    rfl
  case modes => exact Iff.rfl

/-- The states that the library lists tell how the files of a repository differ. -/
theorem listsStates :
    (library files).ListsStates repository (repository.stateAt root committed index) := by
  intro options hentered hignored
  obtain ⟨listing, hlisting, hordered, hcommitted⟩ := h.exists_headSnapshot
  have hshows := h.shows_listings hordered hcommitted
  refine ⟨(repository.listings root listing index).states options, ?_, hshows.tells_states⟩
  have hstated : (options.includesIgnored ||
      options.includesUntracked && !options.entersUntracked) = false := by
    cases hcounts : options.includesUntracked <;> simp_all
  have hstatuses : repository.statuses options =
      .ok ((repository.listings root listing index).states options) := by
    simp only [statuses, h.worktree, hstated, h.indexed, hlisting, Except.bind, Except.map]
    rfl
  exact mapError_eq_ok_iff.mpr hstatuses

/-- Every file of a repository has a path that begins with a name. -/
theorem named_stateAt : (repository.stateAt root committed index).Named where
  head tree htree := by
    obtain ⟨entries, hentries, rfl⟩ := Option.map_eq_some_iff.mp htree
    exact h.named entries hentries
  staged path entry hentry := by
    obtain ⟨indexed, hindexed, rfl, _⟩ := hentry
    exact h.plain.paths indexed hindexed
  conflicted path hconflict := by
    obtain ⟨indexed, hindexed, rfl, _⟩ := hconflict
    exact h.plain.paths indexed hindexed
  working path entry hfile := by
    obtain ⟨node, hnode, _⟩ := hfile
    exact hnode.beginsWithName h.placed

end StandsAt

end TestSelection.Repository
