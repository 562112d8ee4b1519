import Mathlib.Data.List.Dedup
import TestSelection.Proofs.PathGrammar
import TestSelection.Proofs.Segments

/-!
The names that make up a unit. The path of a unit leads over directories below its source root to a
file with a stem and the source suffix, and the identity joins these names by dots. Where no name
has a dot of its own the identity is cut into the same names again, so a set of changes counts as
many units as there are kinds and names among its paths.
-/

namespace TestSelection

namespace Text

variable {names : List String} {last : String}

/-- Cutting at the dots undoes joining by dots where no name has one. -/
theorem segments_joinWith (hnames : names ≠ []) (h : ∀ name ∈ names, '.' ∉ name.toList) :
    segments (joinWith "." names) = names.map String.toList := by
  induction names with
  | nil => exact absurd rfl hnames
  | cons first rest ih =>
    have hfirst : segments first = [first.toList] :=
      segments_of_no_dot (h first List.mem_cons_self)
    by_cases hrest : rest = []
    · rw [hrest, joinWith, String.intercalate_singleton, hfirst]
      rfl
    · have hjoin : joinWith "." (first :: rest) = first ++ "." ++ joinWith "." rest :=
        String.intercalate_cons_of_ne_nil hrest
      have hlater : ∀ name ∈ rest, '.' ∉ name.toList :=
        fun name hname => h name (List.mem_cons_of_mem first hname)
      rw [hjoin, segments_append, hfirst, ih hrest hlater]
      rfl

/-- What stands before the last of the joined names is their package. -/
theorem packageOf_joinWith (h : '.' ∉ last.toList) :
    packageOf (joinWith "." (names ++ [last])) = joinWith "." names := by
  by_cases hnames : names = []
  · have hnone : cutLast '.' last.toList = none := cutLast_eq_none_iff.mpr h
    rw [hnames, List.nil_append, joinWith, String.intercalate_singleton, packageOf, hnone]
    rfl
  · have hjoin : joinWith "." (names ++ [last]) = joinWith "." names ++ "." ++ last := by
      unfold joinWith
      rw [String.intercalate_append_of_ne_nil hnames (List.cons_ne_nil last []),
        String.intercalate_singleton]
    rw [hjoin, packageOf_append _ h]

end Text

/-- Where the path of a unit leads: below which kind of source root, over which directories and to
the file of which stem. -/
structure UnitPlace where
  isTest : Bool
  directories : List String
  stem : String
  deriving Repr, DecidableEq

namespace UnitPlace

/-- The segments below the source root, the last one without the suffix. -/
def names (place : UnitPlace) : List String := place.directories ++ [place.stem]

def identity (place : UnitPlace) : String := Text.joinWith "." place.names

def change (place : UnitPlace) : Change :=
  if place.isTest then .testCompilationUnit place.identity else .compilationUnit place.identity

def Undotted (place : UnitPlace) : Prop := ∀ name ∈ place.names, '.' ∉ name.toList

variable {first second : UnitPlace}

theorem identity_eq_iff (hfirst : first.Undotted) (hsecond : second.Undotted) :
    first.identity = second.identity ↔ first.names = second.names := by
  constructor
  · intro h
    have hne (place : UnitPlace) : place.names ≠ [] := by simp [names]
    have hsegments := congrArg Text.segments h
    rw [identity, identity, Text.segments_joinWith (hne first) hfirst,
      Text.segments_joinWith (hne second) hsecond] at hsegments
    exact List.map_injective_iff.mpr (fun _ _ heq => String.toList_inj.mp heq) hsegments
  · intro h
    rw [identity, identity, h]

theorem packageOf_identity (h : first.Undotted) :
    packageOf first.identity = Text.joinWith "." first.directories :=
  Text.packageOf_joinWith (h first.stem (List.mem_append_right _ List.mem_cons_self))

theorem change_eq_iff : first.change = second.change ↔
    first.isTest = second.isTest ∧ first.identity = second.identity := by
  unfold change
  cases first.isTest <;> cases second.isTest <;> simp

theorem eq_iff_names : first = second ↔
    first.isTest = second.isTest ∧ first.names = second.names := by
  constructor
  · intro h
    rw [h]
    exact ⟨rfl, rfl⟩
  · intro ⟨hkind, hnames⟩
    obtain ⟨hdirectories, hstem⟩ := List.append_inj' hnames rfl
    cases first
    cases second
    simp_all

end UnitPlace

namespace SourceLayout

variable {layout : SourceLayout} {path identity : String} {place other : UnitPlace}

/-- The path leads below its source root, of the kind that the place tells, over the directories of
the place to the file of its stem. -/
structure LeadsTo (layout : SourceLayout) (path : String) (place : UnitPlace) : Prop where
  stated : path ≠ "" ∧ path ≠ absentPath
  stem_ne_empty : place.stem ≠ ""
  below : (if place.isTest then BelowTest else BelowMain) layout (pathSegments path)
    (place.directories ++ [place.stem ++ layout.suffix])

theorem LeadsTo.classify_eq (h : layout.LeadsTo path place) :
    layout.classify path = some place.change := by
  have hidentity :
      identity? layout.suffix (place.directories ++ [place.stem ++ layout.suffix]) =
        some place.identity :=
    identity?_eq_some_iff.mpr ⟨place.stem, h.stem_ne_empty, rfl, rfl⟩
  have hbelow := h.below
  rw [classify_of_stated h.stated.1 h.stated.2, UnitPlace.change]
  cases hkind : place.isTest with
  | false =>
    rw [hkind] at hbelow
    rw [unit?_of_belowMain hbelow, hidentity]
    rfl
  | true =>
    rw [hkind] at hbelow
    rw [unit?_of_belowTest hbelow, hidentity]
    rfl

theorem stated_of_classify (h : layout.classify path ≠ none) : path ≠ "" ∧ path ≠ absentPath := by
  rwa [Ne, classify_eq_none_iff, not_or] at h

/-- A path that is classified as a unit leads to one. -/
theorem exists_leadsTo (h : layout.IsUnit path identity) :
    ∃ place, layout.LeadsTo path place ∧ place.identity = identity := by
  have hclassified : layout.classify path ≠ none := by
    rcases h with h | h <;> simp [h]
  have hstated := stated_of_classify hclassified
  rcases unit?_of_isUnit h with hunit | hunit
  · obtain ⟨below, hbelow, hidentity⟩ := unit?_eq_main_iff.mp hunit
    obtain ⟨directories, stem, rfl, hstem, rfl⟩ := identity?_eq_some_iff_exists.mp hidentity
    exact ⟨⟨false, directories, stem⟩, ⟨hstated, hstem, hbelow⟩, rfl⟩
  · obtain ⟨below, hbelow, hidentity⟩ := unit?_eq_test_iff.mp hunit
    obtain ⟨directories, stem, rfl, hstem, rfl⟩ := identity?_eq_some_iff_exists.mp hidentity
    exact ⟨⟨true, directories, stem⟩, ⟨hstated, hstem, hbelow⟩, rfl⟩

theorem LeadsTo.belowRoot (h : layout.LeadsTo path place) :
    BelowRoot layout (pathSegments path)
      (place.directories ++ [place.stem ++ layout.suffix]) := by
  have hbelow := h.below
  cases hkind : place.isTest with
  | false =>
    rw [hkind] at hbelow
    exact ⟨Or.inl hbelow.follows, fun other hother => hother.elim (hbelow.main other)
      (hbelow.test other)⟩
  | true =>
    rw [hkind] at hbelow
    refine ⟨Or.inr hbelow.follows, fun other hother => hother.elim ?_ (hbelow.test other)⟩
    exact fun hmain => Nat.le_of_lt (hbelow.main other hmain)

/-- A path leads to one place at most: its source root is the one that ends last, and the kind shows
in the change. -/
theorem LeadsTo.unique (h : layout.LeadsTo path place) (hother : layout.LeadsTo path other) :
    place = other := by
  have hchange : place.change = other.change :=
    Option.some.inj (h.classify_eq.symm.trans hother.classify_eq)
  obtain ⟨hdirectories, hfile⟩ :=
    List.append_inj' (h.belowRoot.unique hother.belowRoot) rfl
  have hstem : place.stem = other.stem :=
    (String.append_left_inj layout.suffix).mp (List.cons.inj hfile).1
  rw [UnitPlace.eq_iff_names, UnitPlace.names, UnitPlace.names, hdirectories, hstem]
  exact ⟨(UnitPlace.change_eq_iff.mp hchange).1, rfl⟩

theorem LeadsTo.identity_eq (h : layout.LeadsTo path place) (hunit : layout.IsUnit path identity) :
    identity = place.identity := by
  obtain ⟨other, hother, rfl⟩ := exists_leadsTo hunit
  rw [h.unique hother]

/-- Two paths stand for one change exactly if they lead to one place. -/
theorem LeadsTo.classify_eq_iff {twin : String} (h : layout.LeadsTo path place)
    (htwin : layout.LeadsTo twin other) (hplace : place.Undotted) (hother : other.Undotted) :
    layout.classify path = layout.classify twin ↔ place = other := by
  rw [h.classify_eq, htwin.classify_eq, Option.some_inj, UnitPlace.change_eq_iff,
    UnitPlace.identity_eq_iff hplace hother, UnitPlace.eq_iff_names]

/-- Paths of units lead to as many changes as there are places among them. -/
theorem size_changes {paths : List String} {placeOf : String → UnitPlace}
    (hleads : ∀ path ∈ paths, layout.LeadsTo path (placeOf path))
    (hundotted : ∀ path ∈ paths, (placeOf path).Undotted) :
    (layout.changes paths).size = (paths.map placeOf).dedup.length := by
  have hclassify : paths.filterMap layout.classify = (paths.map placeOf).map UnitPlace.change := by
    rw [List.map_map, ← List.filterMap_eq_map]
    exact List.filterMap_congr fun path hpath => (hleads path hpath).classify_eq
  have hinjective : ∀ first ∈ (paths.map placeOf).dedup, ∀ second ∈ (paths.map placeOf).dedup,
      first.change = second.change → first = second := by
    intro first hfirst second hsecond heq
    obtain ⟨path, hpath, rfl⟩ := List.mem_map.mp (List.mem_dedup.mp hfirst)
    obtain ⟨twin, htwin, rfl⟩ := List.mem_map.mp (List.mem_dedup.mp hsecond)
    apply ((hleads path hpath).classify_eq_iff (hleads twin htwin) (hundotted path hpath)
      (hundotted twin htwin)).mp
    rw [(hleads path hpath).classify_eq, (hleads twin htwin).classify_eq, heq]
  have hnodup : ((paths.map placeOf).dedup.map UnitPlace.change).Nodup :=
    (List.nodup_dedup _).map_on hinjective
  have hset : (layout.changes paths).toList.Nodup := by
    refine (layout.changes paths).ascending.imp ?_
    rintro a _ hlt rfl
    exact Ascending.StrictTotal.irrefl a hlt
  have hperm : (layout.changes paths).toList.Perm
      ((paths.map placeOf).dedup.map UnitPlace.change) := by
    refine (List.perm_ext_iff_of_nodup hset hnodup).mpr fun change => ?_
    have hmem : change ∈ (layout.changes paths).toList ↔
        change ∈ paths.filterMap layout.classify := ChangeSet.mem_ofList
    rw [hmem, hclassify, List.mem_map, List.mem_map]
    simp only [List.mem_dedup]
  rw [ChangeSet.size, hperm.length_eq, List.length_map]

/-- Every path of a unit leads to one place, which makes up its identity. Where no name of a place
has a dot, two identities are equal exactly if the names below the source roots are, the package of
an identity consists of the directories, two paths stand for one change exactly if kind and names
are the same, and paths lead to as many changes as there are kinds and names among them. -/
theorem identities_keep_names (layout : SourceLayout) :
    (∀ path identity, layout.IsUnit path identity →
      ∃ place, place.identity = identity ∧ ∀ other, layout.LeadsTo path other ↔ other = place) ∧
    (∀ first second identity twin p q, layout.IsUnit first identity → layout.IsUnit second twin →
      layout.LeadsTo first p → layout.LeadsTo second q → p.Undotted → q.Undotted →
      (identity = twin ↔ p.names = q.names) ∧
      packageOf identity = Text.joinWith "." p.directories ∧
      (layout.classify first = layout.classify second ↔
        p.isTest = q.isTest ∧ p.names = q.names)) ∧
    ∀ (paths : List String) (placeOf : String → UnitPlace),
      (∀ path ∈ paths, layout.LeadsTo path (placeOf path)) →
      (∀ path ∈ paths, (placeOf path).Undotted) →
      (layout.changes paths).size = (paths.map placeOf).dedup.length := by
  refine ⟨?_, ?_, fun paths placeOf => size_changes⟩
  · intro path identity hunit
    obtain ⟨place, hleads, hidentity⟩ := exists_leadsTo hunit
    refine ⟨place, hidentity, fun other => ⟨fun hother => hother.unique hleads, ?_⟩⟩
    intro heq
    rwa [heq]
  · intro first second identity twin p q hfirst hsecond hp hq hpNames hqNames
    rw [hp.identity_eq hfirst, hq.identity_eq hsecond]
    refine ⟨UnitPlace.identity_eq_iff hpNames hqNames, UnitPlace.packageOf_identity hpNames, ?_⟩
    rw [hp.classify_eq_iff hq hpNames hqNames, UnitPlace.eq_iff_names]

/-- One unit below two source roots, and a unit of the other kind with the same names. -/
theorem identities_keep_names_in_shop :
    let first := "orders/src/main/java/com/acme/Order.java"
    let second := "legacy\\src\\main\\java\\com\\acme\\Order.java"
    let third := "orders/src/test/java/com/acme/Order.java"
    default.classify first = default.classify second ∧
      default.classify first ≠ default.classify third ∧
      packageOf "com.acme.Order" = Text.joinWith "." ["com", "acme"] ∧
      (default.changes [first, second, third]).size = 2 := by
  intro first second third
  let placeOf : String → UnitPlace := fun path => ⟨path = third, ["com", "acme"], "Order"⟩
  have hmain (path : String) (hpath : path = first ∨ path = second) :
      default.LeadsTo path ⟨false, ["com", "acme"], "Order"⟩ := by
    refine ⟨?_, by decide, ?_⟩
    · rcases hpath with rfl | rfl <;> decide
    have hafter : afterLast default.mainMarker (pathSegments path) =
        some ["com", "acme", "Order.java"] := by
      rcases hpath with rfl | rfl <;> decide
    have hnone : afterLast default.testMarker (pathSegments path) = none := by
      rcases hpath with rfl | rfl <;> decide
    obtain ⟨hfollows, hshortest⟩ := afterLast_eq_some hafter
    exact ⟨hfollows, hshortest, fun other hother => absurd hother (afterLast_eq_none hnone other)⟩
  have htest : default.LeadsTo third ⟨true, ["com", "acme"], "Order"⟩ := by
    have hafter : afterLast default.testMarker (pathSegments third) =
        some ["com", "acme", "Order.java"] := by decide
    obtain ⟨hfollows, hshortest⟩ := afterLast_eq_some hafter
    refine ⟨by decide, by decide, hfollows, hshortest, fun other hother => ?_⟩
    exact absurd hother (afterLast_eq_none (by decide) other)
  have hundotted (isTest : Bool) : UnitPlace.Undotted ⟨isTest, ["com", "acme"], "Order"⟩ := by
    cases isTest <;> unfold UnitPlace.Undotted <;> decide
  have hcount : ([first, second, third].map placeOf).dedup.length = 2 := by decide
  obtain ⟨_, hpairs, hsize⟩ := identities_keep_names default
  have hsame := hpairs first second "com.acme.Order" "com.acme.Order" _ _ (Or.inl (by decide))
    (Or.inl (by decide)) (hmain first (Or.inl rfl)) (hmain second (Or.inr rfl)) (hundotted false)
    (hundotted false)
  have hapart := hpairs first third "com.acme.Order" "com.acme.Order" _ _ (Or.inl (by decide))
    (Or.inr (by decide)) (hmain first (Or.inl rfl)) htest (hundotted false) (hundotted true)
  refine ⟨hsame.2.2.mpr ⟨rfl, rfl⟩, fun heq => ?_, hsame.2.1, ?_⟩
  · exact Bool.false_ne_true (hapart.2.2.mp heq).1
  · rw [hsize [first, second, third] placeOf ?_ fun path _ => hundotted _, hcount]
    intro path hpath
    rcases List.mem_cons.mp hpath with rfl | hpath
    · exact hmain _ (Or.inl rfl)
    rcases List.mem_cons.mp hpath with rfl | hpath
    · exact hmain _ (Or.inr rfl)
    · rw [List.mem_singleton.mp hpath]
      exact htest

/-- A dot in the name of a directory reads like a border between two directories. -/
example : default.classify "src/main/java/a.b/C.java" =
    default.classify "src/main/java/a/b/C.java" := by
  decide

end SourceLayout

end TestSelection
