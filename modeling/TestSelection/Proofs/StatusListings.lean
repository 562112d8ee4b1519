import TestSelection.Proofs.EncodedTexts
import TestSelection.Proofs.ListingDifferences

/-!
What a listing of states tells. A state that counts has a path, and its differences have paths on
their sides. A listing tells at which paths files differ if each of these is a path of some state
that counts, and no such state has the path of another file. Where files are compared path by path
and then files that moved are found, what is deleted at one path and new at another one becomes a
single difference, so a state has up to four paths; but whatever has been found to have moved, the
same paths are told.
-/

namespace TestSelection

namespace FileState

variable {joins joinsOthers : Bool} {found deltas others : List Delta} {states : List FileState}
  {state : FileState} {delta : Delta} {differs staged unstaged : Bytes → Prop} {path : Bytes}
  {text : String}

/-- A state counts if it has flags, and none of them says that the file is ignored. -/
def Counts (state : FileState) : Prop := state.flags ≠ [] ∧ StateFlag.ignored ∉ state.flags

/-- A path is on a side of one of the two differences of a state. -/
def HasSide (state : FileState) (path : Bytes) : Prop :=
  ∃ delta, (state.staged = some delta ∨ state.unstaged = some delta) ∧ delta.HasSide path

/-- A state tells a path: this is on a side of a difference, or it is the path of the state and
consists of the bytes of a text. -/
def Shows (state : FileState) (path : Bytes) : Prop :=
  state.HasSide path ∨ state.path = path ∧ ∃ text, Text.bytes text = path

/-- The states tell that files differ at the paths of `differs`: each of these is told by a state
that counts, and a state that counts has no path of another file. There may be other states, which
do not count. -/
structure Tells (differs : Bytes → Prop) (states : List FileState) : Prop where
  covers : ∀ path, differs path → ¬ Delta.IsPlaceholder path →
    ∃ state ∈ states, state.Counts ∧ state.Shows path
  honest : ∀ state ∈ states, state.Counts → ∀ path, state.path = path ∨ state.HasSide path →
    differs path ∨ Delta.IsPlaceholder path

theorem counts_iff : state.Counts ↔ (state.isCurrent || state.isIgnored) = false := by
  simp [Counts, isCurrent, isIgnored]

theorem told_eq_nil_of_not_counts (h : ¬ state.Counts) : state.told = [] := by
  rw [counts_iff, Bool.not_eq_false] at h
  rw [told, if_pos h]

theorem hasSide_iff : state.HasSide path ↔ Delta.HaveSide state.deltas path := by
  simp [HasSide, Delta.HaveSide, deltas]

/-- A state that counts tells the texts of its paths. -/
theorem mem_told_iff (hcounts : state.Counts) :
    text ∈ state.told ↔ ∃ path, state.Shows path ∧ Text.ofBytes path = text := by
  have hflags := counts_iff.mp hcounts
  rw [told, hflags, if_neg Bool.false_ne_true, List.mem_append, List.mem_map, Option.mem_toList]
  simp only [Delta.mem_flatMap_paths_iff, ← hasSide_iff]
  constructor
  · intro h
    rcases h with h | ⟨path, hside, hpath⟩
    · have hbytes : Text.bytes text = state.path := Text.ofUtf8?_eq_some_iff.mp h
      exact ⟨state.path, Or.inr ⟨rfl, text, hbytes⟩, by rw [← hbytes, Text.ofBytes_bytes]⟩
    · exact ⟨path, Or.inl hside, hpath⟩
  · intro h
    obtain ⟨path, hshows, rfl⟩ := h
    rcases hshows with hside | ⟨hown, shown, rfl⟩
    · exact Or.inr ⟨path, hside, rfl⟩
    · left
      rw [hown, Text.ofBytes_bytes, Text.ofUtf8?_bytes]

/-- A listing of states tells the paths at which files differ. -/
theorem Tells.mem_texts_iff (h : Tells differs states) :
    text ∈ texts states ↔
      Delta.isStated text ∧ ∃ path, differs path ∧ Text.ofBytes path = text := by
  rw [texts, Ascending.mem_ofList, List.mem_filter, and_comm, List.mem_flatMap]
  refine and_congr_right fun hstated => ?_
  constructor
  · intro hshown
    obtain ⟨state, hstate, htold⟩ := hshown
    by_cases hcounts : state.Counts
    · obtain ⟨path, hshows, rfl⟩ := (mem_told_iff hcounts).mp htold
      have hpath : state.path = path ∨ state.HasSide path :=
        hshows.elim Or.inr fun hown => Or.inl hown.1
      have hfile := Delta.not_isPlaceholder_of_isStated hstated
      exact ⟨path, (h.honest state hstate hcounts path hpath).resolve_right hfile, rfl⟩
    · rw [told_eq_nil_of_not_counts hcounts] at htold
      cases htold
  · intro hshown
    obtain ⟨path, hdiffers, rfl⟩ := hshown
    have hfile := Delta.not_isPlaceholder_of_isStated hstated
    obtain ⟨state, hstate, hcounts, hshows⟩ := h.covers path hdiffers hfile
    exact ⟨state, hstate, (mem_told_iff hcounts).mpr ⟨path, hshows, rfl⟩⟩

section Joins

/-- The deltas are about the paths that differ, each about one, unless it has been looked for files
that moved and some are joined. -/
def Joins (joins : Bool) (differs : Bytes → Prop) (deltas : List Delta) : Prop :=
  ∃ found, Delta.Lists differs found ∧
    if joins then Delta.Moved found deltas else found.Perm deltas

theorem Joins.haveSide_iff (h : Joins joins differs deltas) (hfile : ¬ Delta.IsPlaceholder path) :
    Delta.HaveSide deltas path ↔ differs path := by
  obtain ⟨found, hlists, hjoined⟩ := h
  rw [← hlists.haveSide_iff hfile]
  split at hjoined
  · exact (hjoined.haveSide_iff hfile).symm
  · exact (Delta.haveSide_of_perm hjoined).symm

theorem Joins.perm (h : Joins joins differs found) (hperm : found.Perm deltas) :
    Joins joins differs deltas := by
  obtain ⟨listed, hlists, hjoined⟩ := h
  refine ⟨listed, hlists, ?_⟩
  split at hjoined
  · next hjoins =>
    rw [if_pos hjoins]
    exact hjoined.perm_right hperm
  · next hjoins =>
    rw [if_neg hjoins]
    exact hjoined.trans hperm

/-- The texts of a listing are those of any differences that are about the same paths. -/
theorem Tells.texts_eq (h : Tells (fun path => staged path ∨ unstaged path) states)
    (hdeltas : Joins joins staged deltas) (hothers : Joins joinsOthers unstaged others) :
    texts states = Delta.texts (deltas ++ others) := by
  apply Ascending.eq_of_mem_iff (Ascending.pairwise_ofList _) (Ascending.pairwise_ofList _)
  intro text
  change text ∈ texts states ↔ text ∈ Delta.texts (deltas ++ others)
  rw [h.mem_texts_iff, Delta.mem_texts_iff]
  refine and_congr_right fun hstated => exists_congr fun path => and_congr_left fun hpath => ?_
  subst hpath
  have hfile := Delta.not_isPlaceholder_of_isStated hstated
  rw [Delta.haveSide_append, hdeltas.haveSide_iff hfile, hothers.haveSide_iff hfile]

/-- States that all count tell at which paths files differ, if their differences do and their own
paths are on the sides of these. -/
theorem tells_of_joins (hstaged : Joins joins staged (states.filterMap (·.staged)))
    (hunstaged : Joins joinsOthers unstaged (states.filterMap (·.unstaged)))
    (hcounts : ∀ state ∈ states, state.Counts)
    (hpath : ∀ state ∈ states, state.HasSide state.path) :
    Tells (fun path => staged path ∨ unstaged path) states := by
  have hsides (path : Bytes) (hfile : ¬ Delta.IsPlaceholder path) :
      (∃ state ∈ states, state.HasSide path) ↔ staged path ∨ unstaged path := by
    rw [← hstaged.haveSide_iff hfile, ← hunstaged.haveSide_iff hfile]
    simp only [HasSide, Delta.HaveSide, List.mem_filterMap]
    grind
  constructor
  · intro path hdiffers hfile
    obtain ⟨state, hstate, hside⟩ := (hsides path hfile).mpr hdiffers
    exact ⟨state, hstate, hcounts state hstate, Or.inl hside⟩
  · intro state hstate _ path hown
    by_cases hfile : Delta.IsPlaceholder path
    · exact Or.inr hfile
    · have hside : state.HasSide path := hown.elim (fun heq => heq ▸ hpath state hstate) id
      exact Or.inl ((hsides path hfile).mp ⟨state, hstate, hside⟩)

end Joins

section Listings

variable {first second listed : List FlaggedDelta} {before after : Option (StateFlag × Delta)}
  {place : Bytes × Option (StateFlag × Delta) × Option (StateFlag × Delta)}
  {side : Bytes × Option (StateFlag × Delta) × Option (StateFlag × Delta) →
    Option (StateFlag × Delta)}

/-- A difference can be told: its flag does not say that a file is ignored, and it has a path for the
file before. -/
def IsTold (found : StateFlag × Delta) : Prop := found.1 ≠ .ignored ∧ found.2.old.isSome

theorem counts_ofDeltas (hbefore : ∀ found ∈ before, IsTold found)
    (hafter : ∀ found ∈ after, IsTold found) (hsome : before.isSome ∨ after.isSome) :
    (ofDeltas before after).Counts := by
  have hflags : (ofDeltas before after).flags = (before.toList ++ after.toList).map (·.1) := rfl
  rw [Counts, hflags]
  constructor
  · cases before <;> cases after <;> simp at hsome ⊢
  · intro hmem
    obtain ⟨found, hfound, hignored⟩ := List.mem_map.mp hmem
    rcases List.mem_append.mp hfound with hfound | hfound
    · exact (hbefore found (Option.mem_toList.mp hfound)).1 hignored
    · exact (hafter found (Option.mem_toList.mp hfound)).1 hignored

/-- The path of a state is that of the file before one of its differences. -/
theorem path_ofDeltas (hbefore : ∀ found ∈ before, IsTold found)
    (hafter : ∀ found ∈ after, IsTold found) (hsome : before.isSome ∨ after.isSome) :
    (ofDeltas before after).HasSide (ofDeltas before after).path := by
  have hold {found : StateFlag × Delta} (h : IsTold found) :
      found.2.HasSide (found.2.old.getD []) := by
    obtain ⟨path, hpath⟩ := Option.isSome_iff_exists.mp h.2
    exact Or.inl (by rw [hpath, Option.getD_some])
  cases before with
  | some found => exact ⟨found.2, Or.inl rfl, hold (hbefore found rfl)⟩
  | none =>
    obtain ⟨found, rfl⟩ := Option.isSome_iff_exists.mp (hsome.resolve_left (by simp))
    exact ⟨found.2, Or.inr rfl, hold (hafter found rfl)⟩

/-- What is found on one side of a place comes from the differences on this side. -/
theorem isTold_of_side
    (hside : (FileChange.join (inOrder first) (inOrder second)).filterMap side =
      (inOrder listed).map Prod.snd)
    (htold : ∀ flagged ∈ listed, IsTold flagged.2)
    (hplace : place ∈ FileChange.join (inOrder first) (inOrder second)) :
    ∀ found ∈ side place, IsTold found := by
  intro found hfound
  have hmem : found ∈ (inOrder listed).map Prod.snd :=
    hside ▸ List.mem_filterMap.mpr ⟨place, hplace, hfound⟩
  obtain ⟨flagged, hflagged, rfl⟩ := List.mem_map.mp hmem
  exact htold flagged (List.mem_mergeSort.mp hflagged)

/-- The states have the differences of one side, in whatever order these were listed. -/
theorem perm_filterMap_ofListings {delta? : FileState → Option Delta}
    (hside : (FileChange.join (inOrder first) (inOrder second)).filterMap side =
      (inOrder listed).map Prod.snd)
    (hdelta : ∀ place, delta? (ofDeltas place.2.1 place.2.2) = (side place).map (·.2)) :
    (listed.map (·.2.2)).Perm ((ofListings first second).filterMap delta?) := by
  have hdeltas : (ofListings first second).filterMap delta? = (inOrder listed).map (·.2.2) := by
    have hsnd := congrArg (List.map Prod.snd) hside
    rw [List.map_filterMap, List.map_map] at hsnd
    rw [ofListings, List.filterMap_map, ← Function.comp_def Prod.snd Prod.snd, ← hsnd]
    exact List.filterMap_congr fun place _ => hdelta place
  rw [hdeltas]
  exact (List.mergeSort_perm listed _).symm.map _

/-- The states of files with given differences tell these. -/
theorem tells_ofListings (hstaged : Joins joins staged (first.map (·.2.2)))
    (hunstaged : Joins joinsOthers unstaged (second.map (·.2.2)))
    (hfirst : ∀ flagged ∈ first, IsTold flagged.2)
    (hsecond : ∀ flagged ∈ second, IsTold flagged.2) :
    Tells (fun path => staged path ∨ unstaged path) (ofListings first second) := by
  obtain ⟨hleft, hright⟩ := map_filterMap_join (inOrder first) (inOrder second)
  apply tells_of_joins
  · exact hstaged.perm (perm_filterMap_ofListings hleft fun _ => rfl)
  · exact hunstaged.perm (perm_filterMap_ofListings hright fun _ => rfl)
  · intro state hstate
    obtain ⟨place, hplace, rfl⟩ := List.mem_map.mp hstate
    exact counts_ofDeltas (isTold_of_side hleft hfirst hplace)
      (isTold_of_side hright hsecond hplace) (isSome_of_mem_join hplace)
  · intro state hstate
    obtain ⟨place, hplace, rfl⟩ := List.mem_map.mp hstate
    exact path_ofDeltas (isTold_of_side hleft hfirst hplace)
      (isTold_of_side hright hsecond hplace) (isSome_of_mem_join hplace)

end Listings

end FileState

namespace FileListings

open FileState

variable {listings : FileListings} {options : StatusOptions} {untracked : Bool} {path : Bytes}

/-- What the last commit, the index and the working files hold is listed by paths. -/
structure Ordered (listings : FileListings) : Prop where
  committed : Listed listings.committed
  staged : Listed listings.staged
  working : Listed listings.working

/-- The last commit and the index differ at a path. -/
def StagedAt (listings : FileListings) (path : Bytes) : Prop :=
  listings.committed.lookup path ≠ listings.staged.lookup path ∨ path ∈ listings.conflicts

/-- The index and the working files differ at a path. -/
def UnstagedAt (listings : FileListings) (untracked : Bool) (path : Bytes) : Prop :=
  (listings.workingChange untracked path (listings.staged.lookup path)
    (listings.working.lookup path)).isSome ∨
      path ∈ if untracked then listings.repositories else []

theorem lists_workingChanges (hordered : listings.Ordered) :
    Delta.Lists (fun path => (listings.workingChange untracked path (listings.staged.lookup path)
      (listings.working.lookup path)).isSome)
      ((listings.workingChanges untracked).map FileChange.delta) := by
  refine FileChange.lists_found (listings.workingChange untracked) hordered.staged
    hordered.working ?_
  intro path before after found hfound
  cases before with
  | some staged =>
    refine ⟨?_, Or.inl rfl⟩
    cases after with
    | some held => exact (Option.some.inj (Option.ite_none_left_eq_some.mp hfound).2).symm
    | none => exact (Option.some.inj hfound).symm
  | none =>
    cases after with
    | some held =>
      exact ⟨(Option.some.inj (Option.ite_none_right_eq_some.mp hfound).2).symm, Or.inr rfl⟩
    | none => cases hfound

/-- The differences of changes, each with the flag for its kind, and of paths with one flag. -/
def flaggedDeltas (pathOf : FileChange → Bytes) (flagOf : ChangeKind → StateFlag) (flag : StateFlag)
    (changes : List FileChange) (others : List Bytes) : List FlaggedDelta :=
  changes.map (fun change => (pathOf change, flagOf change.kind, change.delta)) ++
    others.map (flagged flag)

theorem stagedDeltas_eq :
    listings.stagedDeltas options = flaggedDeltas (·.newPath) (·.stagedFlag) .conflicted
      (if options.joinsStaged then
        FileChange.joined (FileChange.between listings.committed listings.staged)
      else FileChange.between listings.committed listings.staged) listings.conflicts := rfl

theorem unstagedDeltas_eq :
    listings.unstagedDeltas options = flaggedDeltas (·.oldPath) (·.unstagedFlag) .new
      (if options.joinsUnstaged then
        FileChange.joined (listings.workingChanges options.includesUntracked)
      else listings.workingChanges options.includesUntracked)
      (if options.includesUntracked then listings.repositories else []) := by
  cases h : options.includesUntracked <;> simp [unstagedDeltas, flaggedDeltas, h]

theorem isTold_of_mem {pathOf : FileChange → Bytes} {flagOf : ChangeKind → StateFlag}
    {flag : StateFlag} {changes : List FileChange} {others : List Bytes}
    (hkinds : ∀ kind, flagOf kind ≠ .ignored) (hflag : flag ≠ .ignored) :
    ∀ flagged ∈ flaggedDeltas pathOf flagOf flag changes others, IsTold flagged.2 := by
  intro flagged hflagged
  rcases List.mem_append.mp hflagged with hmem | hmem
  · obtain ⟨change, _, rfl⟩ := List.mem_map.mp hmem
    exact ⟨hkinds change.kind, rfl⟩
  · obtain ⟨path, _, rfl⟩ := List.mem_map.mp hmem
    exact ⟨hflag, rfl⟩

theorem joins_flaggedDeltas {differs : Bytes → Prop} {pathOf : FileChange → Bytes}
    {flagOf : ChangeKind → StateFlag} {flag : StateFlag} {changes : List FileChange} (joins : Bool)
    (others : List Bytes) (h : Delta.Lists differs (changes.map FileChange.delta)) :
    Joins joins (fun path => differs path ∨ path ∈ others)
      ((flaggedDeltas pathOf flagOf flag
        (if joins then FileChange.joined changes else changes) others).map (·.2.2)) := by
  have hdeltas (changes : List FileChange) :
      (flaggedDeltas pathOf flagOf flag changes others).map (·.2.2) =
        changes.map FileChange.delta ++ others.map fun path => ⟨some path, some path⟩ := by
    simp [flaggedDeltas, flagged, Function.comp_def]
  rw [hdeltas]
  refine ⟨_, h.append (Delta.Lists.of_paths others), ?_⟩
  cases joins with
  | true => exact (FileChange.moved_joined changes).append _
  | false => exact .refl _

/-- The differences in the index are about the paths at which it differs from the last commit. -/
theorem joins_stagedDeltas (hordered : listings.Ordered) :
    Joins options.joinsStaged listings.StagedAt
      ((listings.stagedDeltas options).map (·.2.2)) := by
  rw [stagedDeltas_eq]
  exact joins_flaggedDeltas _ _ (FileChange.lists_between hordered.committed hordered.staged)

/-- The differences in the working files are about the paths at which they differ from the index. -/
theorem joins_unstagedDeltas (hordered : listings.Ordered) :
    Joins options.joinsUnstaged (listings.UnstagedAt options.includesUntracked)
      ((listings.unstagedDeltas options).map (·.2.2)) := by
  rw [unstagedDeltas_eq]
  exact joins_flaggedDeltas _ _ (lists_workingChanges hordered)

/-- The states that are listed tell how the last commit, the index and the working files differ. -/
theorem tells_states (hordered : listings.Ordered) :
    Tells (fun path => listings.StagedAt path ∨ listings.UnstagedAt options.includesUntracked path)
      (listings.states options) := by
  have hstaged (kind : ChangeKind) : kind.stagedFlag ≠ .ignored := by
    cases kind <;> exact StateFlag.noConfusion
  have hunstaged (kind : ChangeKind) : kind.unstagedFlag ≠ .ignored := by
    cases kind <;> exact StateFlag.noConfusion
  apply tells_ofListings (joins_stagedDeltas hordered) (joins_unstagedDeltas hordered)
  · rw [stagedDeltas_eq]
    exact isTold_of_mem hstaged StateFlag.noConfusion
  · rw [unstagedDeltas_eq]
    exact isTold_of_mem hunstaged StateFlag.noConfusion

end FileListings

end TestSelection
