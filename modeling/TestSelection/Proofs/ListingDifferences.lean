import Mathlib.Data.List.Basic
import TestSelection.Proofs.MovedFiles
import TestSelection.Repository.Comparison

/-!
What the changes between two listings say. Going through two listings side by side finds what each
of them holds at every path, so the changes are about exactly the paths at which the listings hold
different entries. To look for files that moved among changes joins some of them in pairs.
-/

namespace TestSelection

open FileChange

section Join

variable {α β : Type} {old : List (Bytes × α)} {new : List (Bytes × β)} {path : Bytes}
  {before : Option α} {after : Option β}

/-- Going through two listings side by side gives what each of them holds at every path. -/
theorem mem_join_iff (hold : Listed old) (hnew : Listed new) :
    (path, before, after) ∈ join old new ↔
      before = old.lookup path ∧ after = new.lookup path ∧ (before.isSome ∨ after.isSome) := by
  induction old, new using join.induct with
  | case1 new =>
    rw [join, List.mem_map]
    constructor
    · intro h
      obtain ⟨⟨_, found⟩, hmem, heq⟩ := h
      cases heq
      exact ⟨rfl, (hnew.lookup_eq_some_iff.mpr hmem).symm, Or.inr rfl⟩
    · intro h
      obtain ⟨rfl, rfl, hsome⟩ := h
      obtain ⟨found, hfound⟩ := Option.isSome_iff_exists.mp (hsome.resolve_left (by simp))
      exact ⟨(path, found), hnew.lookup_eq_some_iff.mp hfound, by rw [hfound]; rfl⟩
  | case2 old hnonempty =>
    rw [join, List.mem_map]
    · constructor
      · intro h
        obtain ⟨⟨_, found⟩, hmem, heq⟩ := h
        cases heq
        exact ⟨(hold.lookup_eq_some_iff.mpr hmem).symm, rfl, Or.inl rfl⟩
      · intro h
        obtain ⟨rfl, rfl, hsome⟩ := h
        obtain ⟨found, hfound⟩ := Option.isSome_iff_exists.mp (hsome.resolve_right (by simp))
        exact ⟨(path, found), hold.lookup_eq_some_iff.mp hfound, by rw [hfound]; rfl⟩
    · exact hnonempty
  | case3 oldPath oldValue old newPath newValue new hlt ih =>
    rw [join, if_pos hlt, List.mem_cons, ih hold.tail hnew]
    by_cases hpath : path = oldPath
    · subst hpath
      rw [hnew.lookup_before hlt, hold.lookup_tail, List.lookup_cons_self]
      cases before <;> cases after <;> simp
    · simp [lookup_cons_of_ne hpath, hpath]
  | case4 oldPath oldValue old newPath newValue new hge hlt ih =>
    rw [join, if_neg hge, if_pos hlt, List.mem_cons, ih hold hnew.tail]
    by_cases hpath : path = newPath
    · subst hpath
      rw [hold.lookup_before hlt, hnew.lookup_tail, List.lookup_cons_self]
      cases before <;> cases after <;> simp
    · simp [lookup_cons_of_ne hpath, hpath]
  | case5 oldPath oldValue old newPath newValue new hge hle ih =>
    obtain rfl : oldPath = newPath :=
      List.le_antisymm (List.not_lt.mp hle) (List.not_lt.mp hge)
    rw [join, if_neg hge, if_neg hle, List.mem_cons, ih hold.tail hnew.tail]
    by_cases hpath : path = oldPath
    · subst hpath
      rw [hold.lookup_tail, hnew.lookup_tail, List.lookup_cons_self, List.lookup_cons_self]
      cases before <;> cases after <;> simp
    · simp [lookup_cons_of_ne hpath, hpath]

/-- What is found by going through two listings stands in the order of the paths. -/
theorem listed_join (hold : Listed old) (hnew : Listed new) : Listed (join old new) := by
  have hbefore {first : Bytes} {old : List (Bytes × α)} {new : List (Bytes × β)}
      (hold : Listed old) (hnew : Listed new) (hleft : ∀ entry ∈ old, first < entry.1)
      (hright : ∀ entry ∈ new, first < entry.1) : ∀ place ∈ join old new, first < place.1 := by
    rintro ⟨path, before, after⟩ hplace
    obtain ⟨rfl, rfl, hsome⟩ := (mem_join_iff hold hnew).mp hplace
    rcases hsome with hsome | hsome
    · obtain ⟨value, hvalue⟩ := Option.isSome_iff_exists.mp hsome
      exact hleft (path, value) (hold.lookup_eq_some_iff.mp hvalue)
    · obtain ⟨value, hvalue⟩ := Option.isSome_iff_exists.mp hsome
      exact hright (path, value) (hnew.lookup_eq_some_iff.mp hvalue)
  induction old, new using join.induct with
  | case1 new =>
    rw [join]
    exact List.pairwise_map.mpr hnew
  | case2 old hnonempty =>
    rw [join]
    · exact List.pairwise_map.mpr hold
    · exact hnonempty
  | case3 oldPath oldValue old newPath newValue new hlt ih =>
    rw [join, if_pos hlt]
    refine List.pairwise_cons.mpr ⟨?_, ih hold.tail hnew⟩
    refine hbefore hold.tail hnew (List.pairwise_cons.mp hold).1 fun entry hentry => ?_
    rcases List.mem_cons.mp hentry with rfl | hentry
    · exact hlt
    · exact List.lt_trans hlt ((List.pairwise_cons.mp hnew).1 entry hentry)
  | case4 oldPath oldValue old newPath newValue new hge hlt ih =>
    rw [join, if_neg hge, if_pos hlt]
    refine List.pairwise_cons.mpr ⟨?_, ih hold hnew.tail⟩
    refine hbefore hold hnew.tail (fun entry hentry => ?_) (List.pairwise_cons.mp hnew).1
    rcases List.mem_cons.mp hentry with rfl | hentry
    · exact hlt
    · exact List.lt_trans hlt ((List.pairwise_cons.mp hold).1 entry hentry)
  | case5 oldPath oldValue old newPath newValue new hge hle ih =>
    obtain rfl : oldPath = newPath :=
      List.le_antisymm (List.not_lt.mp hle) (List.not_lt.mp hge)
    rw [join, if_neg hge, if_neg hle]
    refine List.pairwise_cons.mpr ⟨?_, ih hold.tail hnew.tail⟩
    exact hbefore hold.tail hnew.tail (List.pairwise_cons.mp hold).1 (List.pairwise_cons.mp hnew).1

/-- A search at every path of two listings finds something about exactly the paths at which there is
something to find. -/
theorem mem_found_iff {γ : Type} (find : Bytes → Option α → Option β → Option γ) {found : γ}
    (hold : Listed old) (hnew : Listed new) (hnothing : ∀ path, find path none none = none) :
    found ∈ (join old new).filterMap (fun place => find place.1 place.2.1 place.2.2) ↔
      ∃ path, find path (old.lookup path) (new.lookup path) = some found := by
  simp only [List.mem_filterMap, Prod.exists, mem_join_iff hold hnew]
  constructor
  · intro h
    obtain ⟨path, _, _, ⟨rfl, rfl, _⟩, hfound⟩ := h
    exact ⟨path, hfound⟩
  · intro h
    obtain ⟨path, hfound⟩ := h
    refine ⟨path, _, _, ⟨rfl, rfl, ?_⟩, hfound⟩
    by_contra hneither
    simp only [not_or, Bool.not_eq_true, Option.isSome_eq_false_iff, Option.isNone_iff_eq_none]
      at hneither
    rw [hneither.1, hneither.2, hnothing] at hfound
    cases hfound

/-- Going through two lists side by side leaves nothing of either list out, in whatever order they
are. -/
theorem map_filterMap_join (old : List (Bytes × α)) (new : List (Bytes × β)) :
    (join old new).filterMap (fun place => place.2.1) = old.map Prod.snd ∧
      (join old new).filterMap (fun place => place.2.2) = new.map Prod.snd := by
  induction old, new using join.induct with
  | case1 new => simp [join, List.filterMap_map]
  | case2 old hnonempty =>
    rw [join]
    · simp [List.filterMap_map]
    · exact hnonempty
  | case3 oldPath oldValue old newPath newValue new hlt ih =>
    rw [join, if_pos hlt]
    simpa using ih
  | case4 oldPath oldValue old newPath newValue new hge hlt ih =>
    rw [join, if_neg hge, if_pos hlt]
    simpa using ih
  | case5 oldPath oldValue old newPath newValue new hge hle ih =>
    rw [join, if_neg hge, if_neg hle]
    simpa using ih

/-- Whatever is found at a path is found on one of the two sides. -/
theorem isSome_of_mem_join {place : Bytes × Option α × Option β} (h : place ∈ join old new) :
    place.2.1.isSome ∨ place.2.2.isSome := by
  induction old, new using join.induct with
  | case1 new =>
    rw [join, List.mem_map] at h
    obtain ⟨_, _, rfl⟩ := h
    exact Or.inr rfl
  | case2 old hnonempty =>
    rw [join, List.mem_map] at h
    · obtain ⟨_, _, rfl⟩ := h
      exact Or.inl rfl
    · exact hnonempty
  | case3 oldPath oldValue old newPath newValue new hlt ih =>
    rw [join, if_pos hlt] at h
    rcases List.mem_cons.mp h with rfl | h
    · exact Or.inl rfl
    · exact ih h
  | case4 oldPath oldValue old newPath newValue new hge hlt ih =>
    rw [join, if_neg hge, if_pos hlt] at h
    rcases List.mem_cons.mp h with rfl | h
    · exact Or.inr rfl
    · exact ih h
  | case5 oldPath oldValue old newPath newValue new hge hle ih =>
    rw [join, if_neg hge, if_neg hle] at h
    rcases List.mem_cons.mp h with rfl | h
    · exact Or.inl rfl
    · exact ih h

end Join

namespace FileChange

variable {change found come : FileChange} {changes gone rest kept : List FileChange}
  {old new : Snapshot} {path : Bytes} {before after : Option FileEntry}

theorem isAbout_ofPath (h : before.isSome ∨ after.isSome) :
    (ofPath path before after).delta.IsAbout path := by
  have hdelta : (ofPath path before after).delta = ⟨some path, some path⟩ := by
    cases before <;> cases after <;> simp_all [ofPath, delta, oldPath, newPath]
  rw [hdelta]
  exact Delta.isAbout_mk path

theorem isAbout_of_isDeleted (h : change.isDeleted) : change.delta.IsAbout change.oldPath := by
  have hnone : change.new = none := by simpa [isDeleted] using h
  have hsame : change.newPath = change.oldPath := by simp [newPath, oldPath, hnone]
  rw [delta, hsame]
  exact Delta.isAbout_mk _

theorem isAbout_of_isAdded (h : change.isAdded) : change.delta.IsAbout change.newPath := by
  have hnone : change.old = none := by simpa [isAdded] using h
  have hsame : change.oldPath = change.newPath := by simp [newPath, oldPath, hnone]
  rw [delta, hsame]
  exact Delta.isAbout_mk _

/-- To look for changes at every path of two listings finds what is to be found, and it is about the
paths at which there is something to find. -/
theorem lists_found (find : Bytes → Option FileEntry → Option FileEntry → Option FileChange)
    (hold : Listed old) (hnew : Listed new)
    (hfind : ∀ path before after found, find path before after = some found →
      found = ofPath path before after ∧ (before.isSome ∨ after.isSome)) :
    Delta.Lists (fun path => (find path (old.lookup path) (new.lookup path)).isSome)
      (((join old new).filterMap fun place => find place.1 place.2.1 place.2.2).map delta) := by
  have hnothing (path : Bytes) : find path none none = none := by
    apply Option.eq_none_iff_forall_ne_some.mpr
    intro found hfound
    simpa using (hfind path none none found hfound).2
  have habout (path : Bytes) (found : FileChange)
      (hfound : find path (old.lookup path) (new.lookup path) = some found) :
      found.delta.IsAbout path := by
    obtain ⟨rfl, hsome⟩ := hfind _ _ _ _ hfound
    exact isAbout_ofPath hsome
  constructor
  · intro delta hdelta
    obtain ⟨found, hmem, rfl⟩ := List.mem_map.mp hdelta
    obtain ⟨path, hfound⟩ := (mem_found_iff find hold hnew hnothing).mp hmem
    exact ⟨path, Option.isSome_of_eq_some hfound, habout path found hfound⟩
  · intro path hsome
    obtain ⟨found, hfound⟩ := Option.isSome_iff_exists.mp hsome
    exact ⟨_, List.mem_map_of_mem ((mem_found_iff find hold hnew hnothing).mpr ⟨path, hfound⟩),
      habout path found hfound⟩

/-- The changes between two listings are about the paths at which they hold different entries. -/
theorem lists_between (hold : Listed old) (hnew : Listed new) :
    Delta.Lists (fun path => old.lookup path ≠ new.lookup path) ((between old new).map delta) := by
  let find (path : Bytes) (before after : Option FileEntry) : Option FileChange :=
    if before = after then none else some (ofPath path before after)
  have hdiffers : (fun path => old.lookup path ≠ new.lookup path) =
      fun path => ((find path (old.lookup path) (new.lookup path)).isSome : Prop) := by
    funext path
    simp [find]
  rw [hdiffers]
  apply lists_found find hold hnew
  intro path before after found hfound
  rw [Option.ite_none_left_eq_some, Option.some.injEq] at hfound
  obtain ⟨hne, rfl⟩ := hfound
  refine ⟨rfl, ?_⟩
  by_contra hneither
  simp only [not_or, Bool.not_eq_true, Option.isSome_eq_false_iff, Option.isNone_iff_eq_none]
    at hneither
  exact hne (hneither.1.trans hneither.2.symm)

theorem delta_moved (h : isMove found come) :
    delta ⟨found.old, come.new⟩ = ⟨some found.oldPath, some come.newPath⟩ := by
  unfold isMove at h
  split at h
  · next hold hnew => simp [delta, oldPath, newPath, hold, hnew]
  · cases h

/-- To pair deleted and new files joins changes that are about one path each. -/
theorem moved_paired (hgone : ∀ change ∈ gone, change.isDeleted)
    (hrest : ∀ change ∈ rest, change.isAdded) :
    Delta.Moved ((gone ++ rest ++ kept).map delta) ((paired gone rest ++ kept).map delta) := by
  induction rest generalizing gone kept with
  | nil => exact .none (by simp [paired])
  | cons come rest ih =>
    obtain ⟨hcome, hrest⟩ := List.forall_mem_cons.mp hrest
    rw [paired]
    split
    · next found hfound =>
      have hmem : found ∈ gone := List.mem_of_find?_eq_some hfound
      have hmove : isMove found come := List.find?_some (p := (isMove · come)) hfound
      have hleft : Delta.Moved
          ((gone.erase found ++ rest ++ ⟨found.old, come.new⟩ :: kept).map delta)
          ((paired (gone.erase found) rest ++ ⟨found.old, come.new⟩ :: kept).map delta) :=
        ih (fun change hchange => hgone change (List.mem_of_mem_erase hchange)) hrest
      have hperm : (gone ++ come :: rest ++ kept).Perm
          (found :: come :: (gone.erase found ++ rest ++ kept)) := by
        have hpair := (List.perm_cons_erase hmem).append_right (come :: rest ++ kept)
        rw [List.append_assoc]
        refine hpair.trans (.cons _ ?_)
        simp
      refine .renamed (hperm.map delta) (isAbout_of_isDeleted (hgone found hmem))
        (isAbout_of_isAdded hcome) ?_
      rw [← delta_moved hmove, ← List.map_cons]
      exact (hleft.perm_left (List.perm_middle.symm.map delta)).perm_right
        (List.perm_middle.map delta)
    · have hleft : Delta.Moved ((gone ++ rest ++ come :: kept).map delta)
          ((paired gone rest ++ come :: kept).map delta) := ih hgone hrest
      have hperm : (gone ++ come :: rest ++ kept).Perm (gone ++ rest ++ come :: kept) := by
        have hmiddle : (come :: (rest ++ kept)).Perm (rest ++ come :: kept) := List.perm_middle.symm
        simpa using hmiddle.append_left gone
      exact (hleft.perm_left (hperm.map delta)).perm_right (List.perm_middle.map delta)

/-- Looking for files that moved joins changes. -/
theorem moved_joined (changes : List FileChange) :
    Delta.Moved (changes.map delta) ((joined changes).map delta) := by
  let gone := changes.filter isDeleted
  let others := changes.filter fun change => !isDeleted change
  let kept := others.filter fun change => !isAdded change
  have hgone : ∀ change ∈ gone, change.isDeleted := fun _ hchange => (List.mem_filter.mp hchange).2
  have hcome : ∀ change ∈ others.filter isAdded, change.isAdded :=
    fun _ hchange => (List.mem_filter.mp hchange).2
  have hothers : others.Perm (others.filter isAdded ++ kept) :=
    (List.filter_append_perm isAdded others).symm
  have hparts : changes.Perm (gone ++ others.filter isAdded ++ kept) := by
    rw [List.append_assoc]
    exact (List.filter_append_perm isDeleted changes).symm.trans (hothers.append_left gone)
  have hmoved : Delta.Moved ((gone ++ others.filter isAdded ++ kept).map delta)
      ((paired gone (others.filter isAdded) ++ kept).map delta) := moved_paired hgone hcome
  exact (hmoved.perm_left (hparts.map delta)).perm_right (List.perm_append_comm.map delta)

end FileChange

end TestSelection
