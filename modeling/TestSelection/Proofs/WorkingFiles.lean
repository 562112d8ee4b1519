import Mathlib.Data.List.Basic
import TestSelection.Proofs.AscendingListings
import TestSelection.Proofs.ShownPaths
import TestSelection.Repository.Worktree

/-!
The working files by their paths. Where every place is there once and no name has a slash, a path
says which place it leads to, so looking it up gives what stands there. A file that is not tracked
is new unless it is left out: the rules say so, of the file or of a directory around it that holds
nothing tracked.
-/

namespace TestSelection

variable {files : FileSystem} {root : Location} {names others : List Bytes}
  {path directory : Bytes} {node other : Node}

/-- Every place is there once, and its path can be taken apart into its names. -/
structure FileSystem.WellPlaced (files : FileSystem) : Prop where
  distinct : (files.nodes.map (·.1)).Nodup
  names : ∀ place ∈ files.nodes.map (·.1), ∀ name ∈ place, name ≠ [] ∧ FileSystem.slash ∉ name

namespace Worktree

/-- What stands at a path of the working files in the directory `root`. What a repository keeps for
itself is not among them. -/
def Stands (files : FileSystem) (root : Location) (path : Bytes) (node : Node) : Prop :=
  ∃ names, names ≠ [] ∧ repositoryName ∉ names ∧ path = joined names ∧
    files.node? (root ++ names) = some node

/-- The working files have a file at a path, which would have the entry `entry` in an index. What is
stored of its content is its own matter. -/
def HasFile (files : FileSystem) (root : Location) (stored : Bytes → ByteArray → ByteArray)
    (path : Bytes) (entry : FileEntry) : Prop :=
  ∃ node, Stands files root path node ∧ entryOf (stored path) node = some entry

/-- No directory below `root` holds a repository of its own. -/
def Unnested (files : FileSystem) (root : Location) : Prop :=
  ∀ names, names ≠ [] → repositoryName ∉ names →
    files.node? (root ++ names ++ [repositoryName]) = none

/-- A path leads through a directory. -/
def LiesBelow (path directory : Bytes) : Prop := directory ++ [FileSystem.slash] <+: path

/-- A file that is not tracked is left out: it is ignored, or a directory around it is that holds
nothing tracked. -/
def LeftOut (rules : IgnoreRules) (tracked : List Bytes) (path : Bytes) : Prop :=
  rules.isIgnored path false ∨
    ∃ directory, LiesBelow path directory ∧ rules.isIgnored directory true ∧
      ∀ other ∈ tracked, ¬ LiesBelow other directory

theorem node?_eq_lookup (hnames : names ≠ []) :
    files.node? (root ++ names) = files.nodes.lookup (root ++ names) :=
  if_neg (by simp [hnames])

theorem node?_eq_some_iff (hplaced : files.WellPlaced) (hnames : names ≠ []) :
    files.node? (root ++ names) = some node ↔ (root ++ names, node) ∈ files.nodes := by
  rw [node?_eq_lookup hnames, lookup_eq_some_iff_mem hplaced.distinct]

theorem slash_notMem (hplaced : files.WellPlaced) (hmem : (root ++ names, node) ∈ files.nodes) :
    ∀ name ∈ names, name ≠ [] ∧ FileSystem.slash ∉ name := by
  intro name hname
  exact hplaced.names _ (List.mem_map_of_mem hmem) name (List.mem_append_right _ hname)

theorem splitOn_joined (hnames : names ≠ []) (hslash : ∀ name ∈ names, FileSystem.slash ∉ name) :
    (joined names).splitOn FileSystem.slash = names :=
  List.splitOn_intercalate FileSystem.slash hslash hnames

theorem stands_iff_mem_under (hplaced : files.WellPlaced) :
    Stands files root path node ↔ (path, node) ∈ under files root := by
  rw [under, List.mem_filterMap]
  constructor
  · intro h
    obtain ⟨names, hnames, hrepository, rfl, hnode⟩ := h
    refine ⟨_, (node?_eq_some_iff hplaced hnames).mp hnode, ?_⟩
    simp [hnames, hrepository]
  · intro h
    obtain ⟨⟨place, found⟩, hmem, h⟩ := h
    simp only [Option.ite_none_right_eq_some, Bool.and_eq_true, Bool.not_eq_true',
      List.isPrefixOf_iff_prefix, List.isEmpty_eq_false_iff, List.contains_eq_mem,
      decide_eq_false_iff_not, Option.some.injEq, Prod.mk.injEq] at h
    obtain ⟨⟨⟨⟨names, rfl⟩, hnames⟩, hrepository⟩, hpath, rfl⟩ := h
    rw [List.drop_left] at hnames hrepository hpath
    exact ⟨names, hnames, hrepository, hpath.symm, (node?_eq_some_iff hplaced hnames).mpr hmem⟩

/-- One thing at most stands at a path. -/
theorem Stands.unique (hplaced : files.WellPlaced) (hfirst : Stands files root path node)
    (hsecond : Stands files root path other) : node = other := by
  obtain ⟨names, hnames, _, hpath, hnode⟩ := hfirst
  obtain ⟨others, hothers, _, hsame, hother⟩ := hsecond
  have hslash := slash_notMem hplaced ((node?_eq_some_iff hplaced hnames).mp hnode)
  have hslashes := slash_notMem hplaced ((node?_eq_some_iff hplaced hothers).mp hother)
  have heq : names = others := by
    rw [← splitOn_joined hnames fun name hname => (hslash name hname).2, ← hpath, hsame,
      splitOn_joined hothers fun name hname => (hslashes name hname).2]
  rw [heq, hother] at hnode
  exact (Option.some.inj hnode).symm

/-- The path of a working file begins with a name. -/
theorem Stands.beginsWithName (hplaced : files.WellPlaced) (h : Stands files root path node) :
    BeginsWithName path := by
  obtain ⟨names, hnames, _, rfl, hnode⟩ := h
  have hslash := slash_notMem hplaced ((node?_eq_some_iff hplaced hnames).mp hnode)
  obtain ⟨name, rest, rfl⟩ := List.exists_cons_of_ne_nil hnames
  obtain ⟨hname, hfree⟩ := hslash name List.mem_cons_self
  have hbegins : BeginsWithName name := .of_name hname hfree
  cases rest with
  | nil => simpa [joined] using hbegins
  | cons second rest => exact hbegins.append _

/-- Where no directory holds a repository of its own, none is found. -/
theorem nestedUnder_eq_nil (hunnested : Unnested files root) : nestedUnder files root = [] := by
  apply List.filterMap_eq_nil_iff.mpr
  intro ⟨place, found⟩ hmem
  simp only [reduceCtorEq, ite_eq_right_iff, Bool.and_eq_true, Bool.not_eq_true',
    List.isPrefixOf_iff_prefix, decide_eq_true_eq, List.contains_eq_mem, decide_eq_false_iff_not,
    imp_false]
  intro h
  obtain ⟨⟨⟨hbelow, hlength⟩, hlast⟩, hrepository⟩ := h
  obtain ⟨names, rfl⟩ := hbelow
  rw [List.drop_left] at hlength hlast hrepository
  obtain ⟨outer, rfl⟩ := List.getLast?_eq_some_iff.mp hlast
  rw [List.dropLast_concat] at hrepository
  have houter : outer ≠ [] := by
    intro hnil
    simp [hnil] at hlength
  have hnone := hunnested outer houter hrepository
  rw [List.append_assoc, node?_eq_lookup (by simp)] at hnone
  exact lookup_eq_none_iff_not_mem.mp hnone (List.mem_map_of_mem hmem)

/-- The directories around a path are those that it leads through. -/
theorem mem_around_iff : directory ∈ around path ↔ LiesBelow path directory := by
  simp only [around, IgnoreRules.directoriesOf, List.dropLast_concat, List.map_map, List.mem_map,
    List.mem_filter, List.mem_reverse, List.mem_range, decide_eq_true_eq, Function.comp_apply]
  constructor
  · intro h
    obtain ⟨i, ⟨_, hslash⟩, rfl⟩ := h
    have htake : path.take (i + 1) = path.take i ++ [FileSystem.slash] := by
      rw [List.take_add_one, hslash]
      rfl
    rw [htake, List.dropLast_concat, LiesBelow, ← htake]
    exact List.take_prefix _ _
  · intro h
    obtain ⟨rest, rfl⟩ := h
    refine ⟨directory.length, ⟨?_, ?_⟩, ?_⟩
    · simp only [List.length_append, List.length_singleton]
      omega
    · simp
    · have hlength : directory.length + 1 = (directory ++ [FileSystem.slash]).length := by simp
      rw [hlength, List.take_left, List.dropLast_concat]

variable {tree : Worktree} {tracked : List Bytes}

theorem holdsAny_iff : holdsAny tracked directory = true ↔
    ∃ other ∈ tracked, LiesBelow other directory := by
  simp only [holdsAny, Index.isBelow, List.any_eq_true, List.isPrefixOf_iff_prefix, LiesBelow]

/-- A file that is not tracked is new unless it is left out. -/
theorem isNew_iff (hnested : tree.nested = []) :
    tree.isNew tracked path = true ↔ ¬ LeftOut tree.rules tracked path := by
  have hopen : tree.isOpen tracked path = true ↔ ∀ directory, LiesBelow path directory →
      tree.rules.isIgnored directory true = true →
        ∃ other ∈ tracked, LiesBelow other directory := by
    simp only [isOpen, List.all_eq_true, mem_around_iff, hnested, List.contains_nil, Bool.not_false,
      Bool.and_true, Bool.or_eq_true, Bool.not_eq_true', holdsAny_iff]
    refine forall₂_congr fun directory _ => ?_
    cases tree.rules.isIgnored directory true <;> simp
  rw [isNew, Bool.and_eq_true, hopen, LeftOut]
  simp only [not_or, not_exists, not_and, not_forall, not_not, exists_prop, Bool.not_eq_true,
    Bool.not_eq_true']

end Worktree

namespace Repository

variable {repository : Repository} {index : Index}

/-- To look a path of the working files up gives what stands there. -/
theorem lookup_worktreeAt_iff (hplaced : repository.files.WellPlaced) :
    (repository.worktreeAt root index).files.lookup path = some node ↔
      Worktree.Stands repository.files root path node := by
  have hunique {path : Bytes} {first second : Node}
      (hfirst : (path, first) ∈ Worktree.under repository.files root)
      (hsecond : (path, second) ∈ Worktree.under repository.files root) : first = second :=
    ((Worktree.stands_iff_mem_under hplaced).mpr hfirst).unique hplaced
      ((Worktree.stands_iff_mem_under hplaced).mpr hsecond)
  rw [Worktree.stands_iff_mem_under hplaced]
  exact lookup_ordered_iff hunique

end Repository

end TestSelection
