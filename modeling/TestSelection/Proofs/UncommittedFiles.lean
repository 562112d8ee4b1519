import TestSelection.Proofs.TrackedBranch

/-!
What is not committed. These are the paths at which the last commit and the index do not hold the
same, those at which a working file is not what the index has, and those of working files that are
not in the index, unless the rules leave them out. What stands in the working files does not hide
what is staged, and no rule hides what is in the index. What is relied on is that a library lists
states that tell how files differ, whatever it finds to have moved.
-/

namespace TestSelection

/-- What a repository holds: the directory of the last commit, unless there is none yet, what the
index has for the next commit and at which paths it is in conflict, the working files as the index
would have them, and the paths that the rules leave out where the index has nothing. -/
structure RepositoryState (Tree : Type) where
  contents : Contents Tree
  head : Option Tree
  staged : Bytes → FileEntry → Prop
  conflicted : Bytes → Prop
  working : Bytes → FileEntry → Prop
  ignored : Bytes → Prop
  /-- It counts which files are executable. -/
  keepsModes : Prop

namespace RepositoryState

variable {Tree : Type} {state : RepositoryState Tree} {untracked : Bool} {path : Bytes}
  {entry found old new : FileEntry}

/-- The last commit has a file. -/
def Committed (state : RepositoryState Tree) (path : Bytes) (entry : FileEntry) : Prop :=
  ∃ tree, state.head = some tree ∧ Holds state.contents tree path entry

/-- A working file is what the index has: it has the same content and the same mode. Where it does
not count which files are executable, the modes may be those of an executable file and another one.
-/
def Agrees (state : RepositoryState Tree) (entry found : FileEntry) : Prop :=
  entry.id = found.id ∧ (entry.mode = found.mode ∨
    ¬ state.keepsModes ∧ entry.mode ∈ [.regular, .executable] ∧
      found.mode ∈ [.regular, .executable])

/-- The last commit and the index differ at a path. -/
inductive StagedAt (state : RepositoryState Tree) (path : Bytes) : Prop
  | entry {entry : FileEntry} (h : ¬ (state.Committed path entry ↔ state.staged path entry))
  | conflict (h : state.conflicted path)

/-- The index and the working files differ at a path. A working file that is not in the index counts
if `untracked`. -/
inductive UnstagedAt (state : RepositoryState Tree) (untracked : Bool) (path : Bytes) : Prop
  | changed {entry : FileEntry} (hentry : state.staged path entry)
      (hdiffers : ∀ found, state.working path found → ¬ state.Agrees entry found)
  | added {found : FileEntry} (hcounts : untracked = true)
      (hnone : ∀ entry, ¬ state.staged path entry) (hconflict : ¬ state.conflicted path)
      (hfile : state.working path found) (hkept : ¬ state.ignored path)

/-- The last commit, the index and the working files do not all have the same at a path. -/
def DiffersAt (state : RepositoryState Tree) (path : Bytes) : Prop :=
  state.StagedAt path ∨ state.UnstagedAt true path

/-- Every file has a path that begins with a name. -/
structure Named (state : RepositoryState Tree) : Prop where
  head : ∀ tree, state.head = some tree → WellNamed state.contents tree
  staged : ∀ path entry, state.staged path entry → BeginsWithName path
  conflicted : ∀ path, state.conflicted path → BeginsWithName path
  working : ∀ path entry, state.working path entry → BeginsWithName path

theorem Committed.unique (hnamed : state.Named) (hold : state.Committed path old)
    (hnew : state.Committed path new) : old = new := by
  obtain ⟨tree, htree, hold⟩ := hold
  obtain ⟨other, hother, hnew⟩ := hnew
  obtain rfl : tree = other := Option.some.inj (htree.symm.trans hother)
  exact hold.unique (hnamed.head tree htree) hnew

theorem Named.beginsWithName (hnamed : state.Named) (h : state.DiffersAt path) :
    BeginsWithName path := by
  rcases h with (@⟨entry, h⟩ | h) | (⟨hentry, _⟩ | ⟨_, _, _, hfile, _⟩)
  · by_cases hstaged : state.staged path entry
    · exact hnamed.staged path entry hstaged
    · obtain ⟨tree, htree, hholds⟩ : state.Committed path entry := by tauto
      exact hholds.beginsWithName (hnamed.head tree htree)
  · exact hnamed.conflicted path h
  · exact hnamed.staged path _ hentry
  · exact hnamed.working path _ hfile

/-- A file of the last commit that is not in the index differs, whatever the working files have. -/
theorem differsAt_of_deleted (hold : state.Committed path old)
    (hnone : ∀ entry, ¬ state.staged path entry) : state.DiffersAt path :=
  Or.inl (.entry fun h => hnone old (h.mp hold))

/-- A file that the index has otherwise than the last commit differs, whatever the working files
have. -/
theorem differsAt_of_changed (hnamed : state.Named) (hold : state.Committed path old)
    (hnew : state.staged path new) (hne : old ≠ new) : state.DiffersAt path :=
  Or.inl (.entry fun h => hne (hold.unique hnamed (h.mpr hnew)))

/-- A working file that is not what the index has differs, whatever the rules say. -/
theorem differsAt_of_tracked (hentry : state.staged path entry)
    (hdiffers : ∀ found, state.working path found → ¬ state.Agrees entry found) :
    state.DiffersAt path :=
  Or.inr (.changed hentry hdiffers)

theorem differsAt_of_untracked (hnone : ∀ entry, ¬ state.staged path entry)
    (hfile : state.working path found) (hkept : ¬ state.ignored path) : state.DiffersAt path := by
  by_cases hconflict : state.conflicted path
  · exact Or.inl (.conflict hconflict)
  · exact Or.inr (.added rfl hnone hconflict hfile hkept)

/-- What neither the last commit nor the index has does not differ where the rules leave it out. -/
theorem not_differsAt_of_ignored (hold : ∀ entry, ¬ state.Committed path entry)
    (hnone : ∀ entry, ¬ state.staged path entry) (hconflict : ¬ state.conflicted path)
    (hignored : state.ignored path) : ¬ state.DiffersAt path := by
  intro hdiffers
  rcases hdiffers with (@⟨entry, h⟩ | h) | (⟨hentry, _⟩ | ⟨_, _, _, _, hkept⟩)
  · exact h (iff_of_false (hold entry) (hnone entry))
  · exact hconflict h
  · exact hnone _ hentry
  · exact hkept hignored

end RepositoryState

namespace RepositoryLibrary

open RepositoryState

/-- A library lists states that tell how the files of a repository differ. What is ignored is not
asked for, and directories with untracked files are to be entered. -/
def ListsStates (library : RepositoryLibrary) (handle : library.Handle)
    (state : RepositoryState library.Tree) : Prop :=
  ∀ options : StatusOptions, (options.includesUntracked → options.entersUntracked) →
    options.includesIgnored = false →
      ∃ states, library.statuses handle options = .ok states ∧
        FileState.Tells
          (fun path => state.StagedAt path ∨ state.UnstagedAt options.includesUntracked path) states

variable {library : RepositoryLibrary} {handle : library.Handle} {root : String}
  {state : RepositoryState library.Tree}

/-- What is not committed are the paths at which the last commit, the index and the working files do
not all have the same. So a file is among them that has been deleted from the index or changed in
it, whatever the working files have; a file in the index that is not what the working files have,
whatever the rules say; and a file that is not in the index, in any directory, unless the rules
leave it out. Every listing of states that tells these differences has the same texts, those of both
paths of each file that moved among them. -/
theorem uncommitted_lists_differences (hopen : library.discover root = .ok handle)
    (hlists : library.ListsStates handle state) (hnamed : state.Named) :
    ∃ paths, (library.reader root .uncommitted).value = .ok paths ∧ paths.Pairwise (· < ·) ∧
      (∀ text, text ∈ paths ↔ ∃ path, Text.ofBytes path = text ∧ state.DiffersAt path) ∧
      (∀ path old, state.Committed path old → (∀ entry, ¬ state.staged path entry) →
        Text.ofBytes path ∈ paths) ∧
      (∀ path old new, state.Committed path old → state.staged path new → old ≠ new →
        Text.ofBytes path ∈ paths) ∧
      (∀ path entry, state.staged path entry →
        (∀ found, state.working path found → ¬ state.Agrees entry found) →
          Text.ofBytes path ∈ paths) ∧
      (∀ path found, (∀ entry, ¬ state.staged path entry) → state.working path found →
        ¬ state.ignored path → Text.ofBytes path ∈ paths) ∧
      (∀ path, (∀ entry, ¬ state.Committed path entry) → (∀ entry, ¬ state.staged path entry) →
        ¬ state.conflicted path → state.ignored path → ¬ state.DiffersAt path) ∧
      ∀ states, FileState.Tells state.DiffersAt states →
        FileState.texts states = paths ∧ ∀ listed ∈ states, listed.Counts →
          ∀ path, listed.HasSide path → ¬ Delta.IsPlaceholder path → Text.ofBytes path ∈ paths := by
  obtain ⟨states, hstates, htells⟩ := hlists .uncommitted (fun _ => rfl) rfl
  have hmem (text : String) (states : List FileState)
      (htells : FileState.Tells state.DiffersAt states) :
      text ∈ FileState.texts states ↔ ∃ path, Text.ofBytes path = text ∧ state.DiffersAt path := by
    rw [htells.mem_texts_iff]
    constructor
    · intro h
      obtain ⟨_, path, hdiffers, hpath⟩ := h
      exact ⟨path, hpath, hdiffers⟩
    · intro h
      obtain ⟨path, rfl, hdiffers⟩ := h
      exact ⟨(hnamed.beginsWithName hdiffers).isStated, path, hdiffers, rfl⟩
  have hshown (path : Bytes) (h : state.DiffersAt path) :
      Text.ofBytes path ∈ FileState.texts states :=
    (hmem _ _ htells).mpr ⟨path, rfl, h⟩
  refine ⟨FileState.texts states, ?_, Ascending.pairwise_ofList _, fun text => hmem _ _ htells,
    ?_, ?_, ?_, ?_, ?_, ?_⟩
  · exact (reader_uncommitted_eq_ok_iff hopen).mpr (map_eq_ok_iff.mpr ⟨states, hstates, rfl⟩)
  · intro path old hold hnone
    exact hshown path (differsAt_of_deleted hold hnone)
  · intro path old new hold hnew hne
    exact hshown path (differsAt_of_changed hnamed hold hnew hne)
  · intro path entry hentry hdiffers
    exact hshown path (differsAt_of_tracked hentry hdiffers)
  · intro path found hnone hfile hkept
    exact hshown path (differsAt_of_untracked hnone hfile hkept)
  · intro path hold hnone hconflict hignored
    exact not_differsAt_of_ignored hold hnone hconflict hignored
  · intro others hothers
    refine ⟨?_, ?_⟩
    · apply Ascending.eq_of_mem_iff (Ascending.pairwise_ofList _) (Ascending.pairwise_ofList _)
      intro text
      exact (hmem text _ hothers).trans (hmem text _ htells).symm
    · intro listed hlisted hcounts path hside hfile
      have hpath := hothers.honest listed hlisted hcounts path (Or.inr hside)
      exact hshown path (hpath.resolve_right hfile)

end RepositoryLibrary

namespace FileListings

open RepositoryState

variable {Tree : Type} {listings : FileListings} {state : RepositoryState Tree} {untracked : Bool}
  {path : Bytes} {options : StatusOptions}

/-- The listings have what a repository holds. No repository lies in another one, and all working
files are looked at. -/
structure Shows (listings : FileListings) (state : RepositoryState Tree) : Prop where
  ordered : listings.Ordered
  committed : ∀ path entry,
    listings.committed.lookup path = some entry ↔ state.Committed path entry
  staged : ∀ path entry, listings.staged.lookup path = some entry ↔ state.staged path entry
  conflicts : ∀ path, path ∈ listings.conflicts ↔ state.conflicted path
  working : ∀ path entry, listings.working.lookup path = some entry ↔ state.working path entry
  kept : ∀ path, listings.isKept path = true ↔ ¬ state.ignored path
  assumed : ∀ path, listings.isAssumed path = false
  repositories : listings.repositories = []
  modes : listings.keepsModes = true ↔ state.keepsModes

namespace Shows

theorem isSame_iff (h : listings.Shows state) {entry found : FileEntry} :
    listings.isSame entry found = true ↔ state.Agrees entry found := by
  have hplain (mode : FileMode) : mode.isPlain = true ↔ mode ∈ [.regular, .executable] := by
    cases mode <;> decide
  simp only [isSame, Agrees, Bool.and_eq_true, Bool.or_eq_true, Bool.not_eq_true',
    decide_eq_true_eq, hplain, ← h.modes, Bool.not_eq_true, and_assoc]

theorem stagedAt_iff (h : listings.Shows state) : listings.StagedAt path ↔ state.StagedAt path := by
  constructor
  · intro hstaged
    rcases hstaged with hne | hconflict
    · by_contra hsame
      refine hne (Option.ext fun entry => ?_)
      rw [h.committed, h.staged]
      by_contra hdiffer
      exact hsame (.entry hdiffer)
    · exact .conflict ((h.conflicts path).mp hconflict)
  · intro hstaged
    rcases hstaged with @⟨entry, hdiffer⟩ | hconflict
    · refine Or.inl fun hsame => hdiffer ?_
      rw [← h.committed, ← h.staged, hsame]
    · exact Or.inr ((h.conflicts path).mpr hconflict)

/-- A change is found where the index has a file that the working files do not have, and where they
have one that counts although the index has none. -/
theorem isSome_workingChange_iff {staged found : Option FileEntry}
    (hassumed : listings.isAssumed path = false) :
    (listings.workingChange untracked path staged found).isSome ↔
      (∃ entry, staged = some entry ∧ ∀ held, found = some held →
        ¬ listings.isSame entry held = true) ∨
      staged = none ∧ (∃ held, found = some held) ∧ untracked = true ∧ path ∉ listings.conflicts ∧
        listings.isKept path = true := by
  cases staged <;> cases found <;> simp [workingChange, hassumed, and_assoc]

theorem unstagedAt_iff (h : listings.Shows state) :
    listings.UnstagedAt untracked path ↔ state.UnstagedAt untracked path := by
  have hnothing : ¬ path ∈ if untracked then listings.repositories else [] := by
    simp [h.repositories]
  have huntracked : listings.staged.lookup path = none ↔ ∀ entry, ¬ state.staged path entry := by
    rw [Option.eq_none_iff_forall_ne_some]
    exact forall_congr' fun entry => not_congr (h.staged path entry)
  rw [FileListings.UnstagedAt, or_iff_left hnothing, isSome_workingChange_iff (h.assumed path),
    huntracked]
  simp only [h.staged, h.working, h.isSame_iff, h.conflicts, h.kept]
  constructor
  · intro hunstaged
    rcases hunstaged with ⟨entry, hentry, hdiffers⟩ |
      ⟨hnone, ⟨held, hfile⟩, hcounts, hconflict, hkept⟩
    · exact .changed hentry hdiffers
    · exact .added hcounts hnone hconflict hfile hkept
  · intro hunstaged
    rcases hunstaged with ⟨hentry, hdiffers⟩ | ⟨hcounts, hnone, hconflict, hfile, hkept⟩
    · exact Or.inl ⟨_, hentry, hdiffers⟩
    · exact Or.inr ⟨hnone, ⟨_, hfile⟩, hcounts, hconflict, hkept⟩

/-- The states that are listed tell how the files of the repository differ. -/
theorem tells_states (h : listings.Shows state) :
    FileState.Tells
      (fun path => state.StagedAt path ∨ state.UnstagedAt options.includesUntracked path)
      (listings.states options) := by
  simp only [← h.stagedAt_iff, ← h.unstagedAt_iff]
  exact FileListings.tells_states h.ordered

end Shows

end FileListings

namespace Shop

open StoredTree

/-- What the shop holds. Logs are ignored. -/
def state (place : Place) : RepositoryState StoredTree where
  contents := contents
  head :=
    match place with
    | .unborn => none
    | _ => some after
  staged path entry := staged.lookup path = some entry
  conflicted _ := False
  working path entry := working.lookup path = some entry
  ignored path := Text.bytes ".log" <:+ path
  keepsModes := True

theorem committed_iff {place : Place} {path : Bytes} {entry : FileEntry} :
    (listings place).committed.lookup path = some entry ↔ (state place).Committed path entry := by
  have hafter : (filesWith newSource).lookup path = some entry ↔
      ∃ tree, some after = some tree ∧ Holds contents tree path entry := by
    rw [lookup_snapshot_iff snapshot_after wellNamed_after]
    simp
  cases place with
  | unborn => simp [listings, state, RepositoryState.Committed]
  | main | spare | detached => exact hafter

theorem shows_listings (place : Place) : (listings place).Shows (state place) where
  ordered := ordered_listings place
  committed _ _ := committed_iff
  staged _ _ := Iff.rfl
  conflicts _ := by simp [listings, state]
  working _ _ := Iff.rfl
  kept path := by
    have hlog : isIgnored path = true ↔ Text.bytes ".log" <:+ path := List.isSuffixOf_iff_suffix
    simp [listings, state, ← hlog]
  assumed _ := rfl
  repositories := rfl
  modes := by simp [listings, state]

theorem listsStates (place : Place) : library.ListsStates place (state place) :=
  fun _ _ _ => ⟨_, rfl, (shows_listings place).tells_states⟩

theorem named_state (place : Place) : (state place).Named := by
  have hnames : ∀ file ∈ staged ++ working, BeginsWithName file.1 := by decide
  have hordered := ordered_listings place
  constructor
  · intro tree htree
    cases place with
    | unborn => cases htree
    | main | spare | detached => exact Option.some.inj htree ▸ wellNamed_after
  · intro path entry hentry
    exact hnames _ (List.mem_append_left _ (hordered.staged.lookup_eq_some_iff.mp hentry))
  · intro path hconflict
    exact hconflict.elim
  · intro path entry hentry
    exact hnames _ (List.mem_append_right _ (hordered.working.lookup_eq_some_iff.mp hentry))

/-- Told are both the paths of a file that has moved in the index, and of one that has moved on the
disk; a file that has been deleted from the index alone; one whose change in the index has been
taken back on the disk; a changed log that is in the index; and a new file in a directory. A new log
is not told. -/
theorem uncommitted_lists_differences_in_shop :
    (library.reader "/shop" .uncommitted).value = .ok differing ∧
      (∀ text, text ∈ differing ↔
        ∃ path, Text.ofBytes path = text ∧ (state .main).DiffersAt path) ∧
      ¬ (state .main).DiffersAt (Text.bytes "out/server.log") ∧
      (library.reader "/unborn" .uncommitted).value = .ok everything ∧
      (∀ text, text ∈ everything ↔
        ∃ path, Text.ofBytes path = text ∧ (state .unborn).DiffersAt path) := by
  have hshop : library.discover "/shop" = .ok .main := rfl
  have hunborn : library.discover "/unborn" = .ok .unborn := rfl
  obtain ⟨paths, hpaths, _, hmem, _, _, _, _, hignored, _⟩ :=
    RepositoryLibrary.uncommitted_lists_differences hshop (listsStates .main) (named_state .main)
  obtain ⟨all, hall, _, heach, _⟩ := RepositoryLibrary.uncommitted_lists_differences hunborn
    (listsStates .unborn) (named_state .unborn)
  obtain rfl : differing = paths := Except.ok.inj ((reader_uncommitted hshop).symm.trans hpaths)
  obtain rfl : everything = all := Except.ok.inj ((reader_uncommitted hunborn).symm.trans hall)
  refine ⟨hpaths, hmem, hignored _ ?_ ?_ id ?_, hall, heach⟩
  · intro entry hentry
    have hnone : (listings .main).committed.lookup (Text.bytes "out/server.log") = none := by decide
    have hlisted := hnone.symm.trans (committed_iff.mpr hentry)
    cases hlisted
  · intro entry hentry
    have hnone : staged.lookup (Text.bytes "out/server.log") = none := by decide
    have hlisted := hnone.symm.trans hentry
    cases hlisted
  · show Text.bytes ".log" <:+ Text.bytes "out/server.log"
    decide

end Shop

end TestSelection
