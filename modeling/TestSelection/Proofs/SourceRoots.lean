import Mathlib.Data.List.Infix
import TestSelection.Change.Layout
import TestSelection.Proofs.PackageNesting

/-!
Where the source root of a path ends. What stands below the root is the shortest rest of the path
that follows a marker of the layout, and a path has at most one such rest. The identity of a unit
is built from it, so the package of that identity lies in every package that the directories below
the root lie in. Directory and file names may contain dots.
-/

namespace TestSelection.SourceLayout

/-- `below` is the rest of `segments` behind an occurrence of `marker`. An empty marker does not
occur anywhere. -/
def Follows (marker segments below : List String) : Prop :=
  marker ≠ [] ∧ ∃ before, segments = before ++ marker ++ below

/-- `below` is the rest of `segments` behind the source root, the marker that ends last. -/
structure BelowRoot (layout : SourceLayout) (segments below : List String) : Prop where
  follows : Follows layout.mainMarker segments below ∨ Follows layout.testMarker segments below
  shortest : ∀ other,
    Follows layout.mainMarker segments other ∨ Follows layout.testMarker segments other →
      below.length ≤ other.length

/-- The layout takes the file at `path` for a production or test unit with the given identity. -/
def IsUnit (layout : SourceLayout) (path identity : String) : Prop :=
  layout.classify path = some (.compilationUnit identity) ∨
    layout.classify path = some (.testCompilationUnit identity)

theorem Follows.suffix {marker segments below : List String} (h : Follows marker segments below) :
    below <:+ segments := by
  obtain ⟨_, before, rfl⟩ := h
  exact List.suffix_append _ _

theorem follows_cons_iff {marker rest below : List String} {segment : String} :
    Follows marker (segment :: rest) below ↔
      Follows marker rest below ∨ marker ≠ [] ∧ segment :: rest = marker ++ below := by
  constructor
  · rintro ⟨hmarker, before, hbefore⟩
    cases before with
    | nil => exact Or.inr ⟨hmarker, hbefore⟩
    | cons first before => exact Or.inl ⟨hmarker, before, (List.cons.inj hbefore).2⟩
  · rintro (⟨hmarker, before, rfl⟩ | ⟨hmarker, hbelow⟩)
    · exact ⟨hmarker, segment :: before, rfl⟩
    · exact ⟨hmarker, [], hbelow⟩

theorem afterLast_eq_none {marker segments : List String} (h : afterLast marker segments = none)
    (below : List String) : ¬ Follows marker segments below := by
  induction segments with
  | nil =>
    rintro ⟨hmarker, before, hbefore⟩
    simp at hbefore
    exact hmarker hbefore.2.1
  | cons segment rest ih =>
    unfold afterLast at h
    split at h
    · cases h
    · next hrest =>
      split at h
      · cases h
      · next hstart =>
        intro hfollows
        rcases follows_cons_iff.mp hfollows with hfollows | ⟨hmarker, hbelow⟩
        · exact ih hrest hfollows
        · apply hstart
          simp only [Bool.and_eq_true, decide_eq_true_eq]
          refine ⟨hmarker, List.isPrefixOf_iff_prefix.mpr ?_⟩
          rw [hbelow]
          exact List.prefix_append _ _

theorem afterLast_eq_some {marker segments below : List String}
    (h : afterLast marker segments = some below) :
    Follows marker segments below ∧
      ∀ other, Follows marker segments other → below.length ≤ other.length := by
  induction segments generalizing below with
  | nil => cases h
  | cons segment rest ih =>
    unfold afterLast at h
    split at h
    · next found hfound =>
      cases h
      obtain ⟨hfollows, hshortest⟩ := ih hfound
      refine ⟨follows_cons_iff.mpr (Or.inl hfollows), ?_⟩
      intro other hother
      rcases follows_cons_iff.mp hother with hother | ⟨_, hwhole⟩
      · exact hshortest other hother
      · obtain ⟨_, before, hbefore⟩ := hfollows
        have hlength := congrArg List.length hwhole
        rw [hbefore] at hlength
        simp only [List.length_cons, List.length_append] at hlength
        omega
    · next hnone =>
      split at h
      · next hstart =>
        cases h
        simp only [Bool.and_eq_true, decide_eq_true_eq] at hstart
        obtain ⟨hmarker, hprefix⟩ := hstart
        obtain ⟨found, hfound⟩ := List.isPrefixOf_iff_prefix.mp hprefix
        have hdrop : (segment :: rest).drop marker.length = found := by
          rw [← hfound, List.drop_left]
        rw [hdrop]
        refine ⟨follows_cons_iff.mpr (Or.inr ⟨hmarker, hfound.symm⟩), ?_⟩
        intro other hother
        rcases follows_cons_iff.mp hother with hother | ⟨_, hwhole⟩
        · exact absurd hother (afterLast_eq_none hnone other)
        · exact (congrArg List.length (List.append_cancel_left (hfound.trans hwhole))).le
      · cases h

/-- A path has at most one rest behind its source root. -/
theorem BelowRoot.unique {layout : SourceLayout} {segments first second : List String}
    (hfirst : BelowRoot layout segments first) (hsecond : BelowRoot layout segments second) :
    first = second := by
  have hlength : first.length = second.length :=
    Nat.le_antisymm (hfirst.shortest second hsecond.follows)
      (hsecond.shortest first hfirst.follows)
  have hsuffix : ∀ {below : List String}, BelowRoot layout segments below → below <:+ segments :=
    fun h => h.follows.elim Follows.suffix Follows.suffix
  exact (List.suffix_of_suffix_length_le (hsuffix hfirst) (hsuffix hsecond)
    hlength.le).eq_of_length hlength

theorem identity?_eq_some_iff {suffix file identity : String} {directories : List String} :
    identity? suffix (directories ++ [file]) = some identity ↔
      ∃ stem, stem ≠ "" ∧ file = stem ++ suffix ∧
        identity = Text.joinWith "." (directories ++ [stem]) := by
  unfold identity?
  rw [List.getLast?_concat, List.dropLast_concat]
  dsimp only
  constructor
  · intro h
    split at h
    · cases h
    · cases h
    · next stem hnonempty hstem =>
      cases h
      refine ⟨String.ofList stem, ?_, ?_, rfl⟩
      · intro hempty
        exact hnonempty (String.ofList_eq_empty_iff.mp hempty)
      · apply String.toList_inj.mp
        simpa [String.toList_append] using Text.dropEnd?_eq_some_iff.mp hstem
  · rintro ⟨stem, hstem, rfl, rfl⟩
    have hdrop : Text.dropEnd? suffix.toList (stem ++ suffix).toList = some stem.toList :=
      Text.dropEnd?_eq_some_iff.mpr String.toList_append
    rw [hdrop]
    cases hlist : stem.toList with
    | nil => exact absurd (String.toList_eq_nil_iff.mp hlist) hstem
    | cons c rest =>
      have hname : String.ofList (c :: rest) = stem := by rw [← hlist, String.ofList_toList]
      change some (Text.joinWith "." (directories ++ [String.ofList (c :: rest)])) = _
      rw [hname]

variable {layout : SourceLayout} {segments : List String}

theorem belowRoot_of_main {below : List String}
    (hmain : afterLast layout.mainMarker segments = some below)
    (htest : ∀ other, Follows layout.testMarker segments other → below.length ≤ other.length) :
    BelowRoot layout segments below where
  follows := Or.inl (afterLast_eq_some hmain).1
  shortest other := fun h => h.elim ((afterLast_eq_some hmain).2 other) (htest other)

theorem belowRoot_of_test {below : List String}
    (htest : afterLast layout.testMarker segments = some below)
    (hmain : ∀ other, Follows layout.mainMarker segments other → below.length ≤ other.length) :
    BelowRoot layout segments below where
  follows := Or.inr (afterLast_eq_some htest).1
  shortest other := fun h => h.elim (hmain other) ((afterLast_eq_some htest).2 other)

/-- A unit's identity is made from what stands below its source root. -/
theorem exists_belowRoot_of_unit? {change : Change} (h : layout.unit? segments = some change) :
    ∃ below kind, BelowRoot layout segments below ∧
      (kind = Change.compilationUnit ∨ kind = Change.testCompilationUnit) ∧
      (identity? layout.suffix below).map kind = some change := by
  unfold unit? at h
  dsimp only at h
  split at h
  · next main test hmain htest =>
    split at h
    · next hlater =>
      refine ⟨test, _, belowRoot_of_test htest ?_, Or.inr rfl, h⟩
      intro other hother
      have := (afterLast_eq_some hmain).2 other hother
      omega
    · next hlater =>
      refine ⟨main, _, belowRoot_of_main hmain ?_, Or.inl rfl, h⟩
      intro other hother
      have := (afterLast_eq_some htest).2 other hother
      omega
  · next main hmain htest =>
    refine ⟨main, _, belowRoot_of_main hmain ?_, Or.inl rfl, h⟩
    exact fun other hother => absurd hother (afterLast_eq_none htest other)
  · next test hmain htest =>
    refine ⟨test, _, belowRoot_of_test htest ?_, Or.inr rfl, h⟩
    exact fun other hother => absurd hother (afterLast_eq_none hmain other)
  · cases h

theorem unit?_of_isUnit {path identity : String} (h : layout.IsUnit path identity) :
    layout.unit? (pathSegments path) = some (.compilationUnit identity) ∨
      layout.unit? (pathSegments path) = some (.testCompilationUnit identity) := by
  unfold IsUnit classify at h
  split at h
  · simp at h
  · cases hunit : layout.unit? (pathSegments path) with
    | none => simp [hunit] at h
    | some change => simpa [hunit] using h

/-- The identity of a unit is the dotted list of the directories below its source root and the
file name without the suffix. -/
theorem identity_of_isUnit {path identity file : String} {directories : List String}
    (h : layout.IsUnit path identity)
    (hbelow : BelowRoot layout (pathSegments path) (directories ++ [file])) :
    ∃ stem, stem ≠ "" ∧ file = stem ++ layout.suffix ∧
      identity = Text.joinWith "." (directories ++ [stem]) := by
  have hidentity : identity? layout.suffix (directories ++ [file]) = some identity := by
    rcases unit?_of_isUnit h with hunit | hunit
    all_goals
      obtain ⟨below, kind, hroot, hkind, hmap⟩ := exists_belowRoot_of_unit? hunit
      obtain ⟨found, hfound, heq⟩ := Option.map_eq_some_iff.mp hmap
      rw [hroot.unique hbelow] at hfound
      rcases hkind with rfl | rfl <;> cases heq
      exact hfound
  exact identity?_eq_some_iff.mp hidentity

/-- A unit belongs to every package that the directories below its source root lie in. The empty
package is left out: a dot in the name of a file right below the root would lead out of it. -/
theorem packageOf_isUnit_liesIn {path identity file base : String} {directories : List String}
    (h : layout.IsUnit path identity)
    (hbelow : BelowRoot layout (pathSegments path) (directories ++ [file]))
    (hbase : base ≠ "") (hwithin : LiesIn (Text.joinWith "." directories) base) :
    LiesIn (packageOf identity) base := by
  obtain ⟨stem, _, _, rfl⟩ := identity_of_isUnit h hbelow
  have hdirectories : directories ≠ [] := by
    rintro rfl
    rcases hwithin with heq | ⟨rest, heq⟩
    · exact hbase (heq.symm.trans String.intercalate_nil)
    · simp [Text.joinWith] at heq
  have hjoin : Text.joinWith "." (directories ++ [stem]) =
      Text.joinWith "." directories ++ "." ++ stem := by
    unfold Text.joinWith
    rw [String.intercalate_append_of_ne_nil hdirectories (by simp), String.intercalate_singleton]
  rw [hjoin]
  exact (packageOf_liesIn _ stem).trans hwithin

/-- The changed units of a set of paths are the units at its paths. -/
theorem mem_entities_changes {paths : List String} {identity : String} :
    identity ∈ (layout.changes paths).entities ↔ ∃ path ∈ paths, layout.IsUnit path identity := by
  unfold ChangeSet.entities changes
  rw [List.mem_filterMap]
  constructor
  · rintro ⟨change, hchange, hidentity⟩
    obtain ⟨path, hpath, hclassify⟩ := List.mem_filterMap.mp (ChangeSet.mem_ofList.mp hchange)
    refine ⟨path, hpath, ?_⟩
    cases change with
    | compilationUnit name => exact Or.inl (by rw [hclassify, Option.some.inj hidentity])
    | testCompilationUnit name => exact Or.inr (by rw [hclassify, Option.some.inj hidentity])
    | otherFile name => cases hidentity
  · rintro ⟨path, hpath, hclassify | hclassify⟩
    · exact ⟨_, ChangeSet.mem_ofList.mpr (List.mem_filterMap.mpr ⟨path, hpath, hclassify⟩), rfl⟩
    · exact ⟨_, ChangeSet.mem_ofList.mpr (List.mem_filterMap.mpr ⟨path, hpath, hclassify⟩), rfl⟩

end TestSelection.SourceLayout
