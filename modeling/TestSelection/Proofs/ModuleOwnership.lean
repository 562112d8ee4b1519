import Mathlib.Data.List.Nodup
import TestSelection.Module.Graph
import TestSelection.Proofs.PackageNesting

/-!
Who owns an identity, read off the declarations that a graph was built from. Accepted declarations
have distinct names, so asking the graph about a name is asking the one declaration of that name.
Ownership and the location of a package are computed by different searches; both are tied here to
the base packages that the declarations list.
-/

namespace TestSelection

/-- A declaration owns the identities that it lists and those whose package lies in one of its
base packages. -/
def ModuleSpec.Owns (spec : ModuleSpec) (identity : String) : Prop :=
  identity ∈ spec.entities ∨ ∃ base ∈ spec.packages, LiesIn (packageOf identity) base

namespace ModuleGraph

variable {graph : ModuleGraph} {specs : List ModuleSpec}

theorem firstRepeated_eq_none_iff {seen names : List String} :
    firstRepeated seen names = none ↔ names.Nodup ∧ ∀ name ∈ names, name ∉ seen := by
  induction names generalizing seen with
  | nil => simp [firstRepeated]
  | cons head rest ih =>
    unfold firstRepeated
    split
    · next hseen => simp [hseen]
    · next hnew =>
      rw [ih, List.nodup_cons]
      constructor
      · rintro ⟨hrest, hfresh⟩
        refine ⟨⟨fun hhead => hfresh head hhead (by simp), hrest⟩, ?_⟩
        intro name hname
        rcases List.mem_cons.mp hname with rfl | hname
        · exact hnew
        · exact fun h => hfresh name hname (List.mem_append_left _ h)
      · rintro ⟨⟨hhead, hrest⟩, hfresh⟩
        refine ⟨hrest, ?_⟩
        intro name hname h
        rcases List.mem_append.mp h with h | h
        · exact hfresh name (List.mem_cons_of_mem _ hname) h
        · exact hhead (List.mem_singleton.mp h ▸ hname)

/-- Ordering declarations changes their order and that of their dependencies, nothing else. -/
theorem mem_ordered_iff {spec : ModuleSpec} :
    spec ∈ ordered specs ↔ ∃ given ∈ specs,
      { given with dependencies := Ascending.ofList given.dependencies } = spec := by
  unfold ordered
  rw [(List.mergeSort_perm _ _).mem_iff, List.mem_map]

theorem modules_eq_of_ofSpecs (h : ofSpecs specs = .ok graph) : graph.modules = ordered specs := by
  unfold ofSpecs at h
  split at h
  · cases h
  · split at h
    · cases h
    · cases h
      rfl

/-- Accepted declarations have distinct names. -/
theorem nodup_of_ofSpecs (h : ofSpecs specs = .ok graph) : (specs.map (·.name)).Nodup := by
  unfold ofSpecs at h
  split at h
  · cases h
  · next hnone => exact (firstRepeated_eq_none_iff.mp hnone).1

theorem names_perm_of_ofSpecs (h : ofSpecs specs = .ok graph) :
    graph.names.Perm (specs.map (·.name)) := by
  unfold names
  rw [modules_eq_of_ofSpecs h]
  refine ((List.mergeSort_perm _ _).map _).trans ?_
  rw [List.map_map]
  exact List.Perm.refl _

theorem nodup_names_of_ofSpecs (h : ofSpecs specs = .ok graph) : graph.names.Nodup :=
  (names_perm_of_ofSpecs h).nodup_iff.mpr (nodup_of_ofSpecs h)

theorem mem_names_iff_declared (h : ofSpecs specs = .ok graph) {name : String} :
    name ∈ graph.names ↔ ∃ spec ∈ specs, spec.name = name := by
  rw [(names_perm_of_ofSpecs h).mem_iff, List.mem_map]

/-- A name has one declaration. -/
theorem eq_of_name_eq (h : ofSpecs specs = .ok graph) {spec other : ModuleSpec}
    (hspec : spec ∈ specs) (hother : other ∈ specs) (hname : spec.name = other.name) :
    spec = other :=
  List.inj_on_of_nodup_map (nodup_of_ofSpecs h) hspec hother hname

theorem find?_eq_some_iff (hdistinct : graph.names.Nodup) {name : String} {spec : ModuleSpec} :
    graph.find? name = some spec ↔ spec ∈ graph.modules ∧ spec.name = name := by
  unfold find?
  constructor
  · intro h
    exact ⟨List.mem_of_find?_eq_some h, by simpa using List.find?_some h⟩
  · rintro ⟨hspec, rfl⟩
    cases hfind : graph.modules.find? fun other => other.name = spec.name with
    | none => exact absurd (List.find?_eq_none.mp hfind spec hspec) (by simp)
    | some other =>
      have hname : other.name = spec.name := by simpa using List.find?_some hfind
      have heq := List.inj_on_of_nodup_map hdistinct (List.mem_of_find?_eq_some hfind) hspec hname
      rw [heq]

theorem containsEntity_iff_owns (hdistinct : graph.names.Nodup) {name identity : String} :
    graph.containsEntity name identity = true ↔
      ∃ spec ∈ graph.modules, spec.name = name ∧ spec.Owns identity := by
  have howns : ∀ spec : ModuleSpec, (spec.entities.contains identity ||
      spec.packages.any fun base => isWithin (packageOf identity) base) = true ↔
        spec.Owns identity := by
    intro spec
    simp only [Bool.or_eq_true, List.contains_iff_mem, List.any_eq_true, isWithin_iff_liesIn]
    exact Iff.rfl
  unfold containsEntity
  constructor
  · intro h
    split at h
    · exact absurd h (by simp)
    · next spec hfind =>
      obtain ⟨hspec, hname⟩ := (find?_eq_some_iff hdistinct).mp hfind
      exact ⟨spec, hspec, hname, (howns spec).mp h⟩
  · rintro ⟨spec, hspec, hname, h⟩
    rw [(find?_eq_some_iff hdistinct).mpr ⟨hspec, hname⟩]
    exact (howns spec).mpr h

/-- A module of an accepted graph owns what its declaration owns. -/
theorem containsEntity_iff_declared (h : ofSpecs specs = .ok graph) {name identity : String} :
    graph.containsEntity name identity = true ↔
      ∃ spec ∈ specs, spec.name = name ∧ spec.Owns identity := by
  rw [containsEntity_iff_owns (nodup_names_of_ofSpecs h), modules_eq_of_ofSpecs h]
  constructor
  · rintro ⟨spec, hspec, hname, howns⟩
    obtain ⟨given, hgiven, rfl⟩ := mem_ordered_iff.mp hspec
    exact ⟨given, hgiven, hname, howns⟩
  · rintro ⟨given, hgiven, hname, howns⟩
    exact ⟨_, mem_ordered_iff.mpr ⟨given, hgiven, rfl⟩, hname, howns⟩

/-- A module of an accepted graph depends on what its declaration depends on. -/
theorem mem_dependencies_iff_declared (h : ofSpecs specs = .ok graph) {name next : String} :
    next ∈ graph.dependencies name ↔
      ∃ spec ∈ specs, spec.name = name ∧ next ∈ spec.dependencies := by
  unfold dependencies
  constructor
  · intro hnext
    cases hfind : graph.find? name with
    | none => simp [hfind] at hnext
    | some spec =>
      rw [hfind, Option.map_some, Option.getD_some] at hnext
      obtain ⟨hspec, hname⟩ := (find?_eq_some_iff (nodup_names_of_ofSpecs h)).mp hfind
      rw [modules_eq_of_ofSpecs h] at hspec
      obtain ⟨given, hgiven, rfl⟩ := mem_ordered_iff.mp hspec
      exact ⟨given, hgiven, hname, Ascending.mem_ofList.mp hnext⟩
  · rintro ⟨given, hgiven, hname, hnext⟩
    have hspec := mem_ordered_iff.mpr ⟨given, hgiven, rfl⟩
    rw [← modules_eq_of_ofSpecs h] at hspec
    rw [(find?_eq_some_iff (nodup_names_of_ofSpecs h)).mpr ⟨hspec, hname⟩]
    exact Ascending.mem_ofList.mpr hnext

theorem firstUndeclared_eq_none_iff {modules : List ModuleSpec} :
    firstUndeclared modules = none ↔
      ∀ spec ∈ modules, ∀ next ∈ spec.dependencies, ∃ other ∈ modules, other.name = next := by
  simp [firstUndeclared, List.findSome?_eq_none_iff]

/-- What a module of an accepted graph depends on is declared. -/
theorem mem_names_of_mem_dependencies (h : ofSpecs specs = .ok graph) {name next : String}
    (hnext : next ∈ graph.dependencies name) : next ∈ graph.names := by
  have hdeclared : firstUndeclared (ordered specs) = none := by
    unfold ofSpecs at h
    split at h
    · cases h
    · split at h
      · cases h
      · assumption
  obtain ⟨spec, hspec, _, hnext⟩ := (mem_dependencies_iff_declared h).mp hnext
  have hordered := mem_ordered_iff.mpr ⟨spec, hspec, rfl⟩
  obtain ⟨other, hother, hname⟩ := firstUndeclared_eq_none_iff.mp hdeclared _ hordered next
    (Ascending.mem_ofList.mpr hnext)
  rw [← modules_eq_of_ofSpecs h] at hother
  exact List.mem_map.mpr ⟨other, hother, hname⟩

theorem mem_of_longest {entries : List (String × String)} {entry : String × String}
    (h : longest entries = some entry) : entry ∈ entries := by
  induction entries generalizing entry with
  | nil => cases h
  | cons head rest ih =>
    unfold longest at h
    split at h
    · cases h
      exact List.mem_cons_self
    · next other hother =>
      split at h
      · cases h
        exact List.mem_cons_of_mem _ (ih hother)
      · cases h
        exact List.mem_cons_self

theorem longest_eq_none {entries : List (String × String)} (h : longest entries = none) :
    entries = [] := by
  cases entries with
  | nil => rfl
  | cons head rest =>
    unfold longest at h
    split at h
    · cases h
    · split at h <;> cases h

theorem mem_bases_iff {package name base : String} :
    (name, base) ∈ graph.bases package ↔
      ∃ spec ∈ graph.modules, spec.name = name ∧ base ∈ spec.packages ∧ LiesIn package base := by
  unfold bases
  simp only [List.mem_flatMap, List.mem_map, List.mem_filter, isWithin_iff_liesIn, Prod.mk.injEq]
  constructor
  · rintro ⟨spec, hspec, other, ⟨hbase, hwithin⟩, hname, rfl⟩
    exact ⟨spec, hspec, hname, hbase, hwithin⟩
  · rintro ⟨spec, hspec, hname, hbase, hwithin⟩
    exact ⟨spec, hspec, base, ⟨hbase, hwithin⟩, hname, rfl⟩

theorem exists_base_of_moduleForPackage {package name : String}
    (h : graph.moduleForPackage package = some name) :
    ∃ spec ∈ graph.modules, spec.name = name ∧ ∃ base ∈ spec.packages, LiesIn package base := by
  obtain ⟨⟨other, base⟩, hlongest, rfl⟩ := Option.map_eq_some_iff.mp h
  obtain ⟨spec, hspec, hname, hbase, hwithin⟩ := mem_bases_iff.mp (mem_of_longest hlongest)
  exact ⟨spec, hspec, hname, base, hbase, hwithin⟩

theorem not_liesIn_of_moduleForPackage {package : String}
    (h : graph.moduleForPackage package = none) {spec : ModuleSpec} (hspec : spec ∈ graph.modules)
    {base : String} (hbase : base ∈ spec.packages) : ¬ LiesIn package base := by
  intro hwithin
  have hnone : graph.bases package = [] := longest_eq_none (Option.map_eq_none_iff.mp h)
  have hmem : (spec.name, base) ∈ graph.bases package :=
    mem_bases_iff.mpr ⟨spec, hspec, rfl, hbase, hwithin⟩
  rw [hnone] at hmem
  exact absurd hmem List.not_mem_nil

/-- A shop of three modules: shipping depends on orders, billing stands alone. -/
def shopSpecs : List ModuleSpec :=
  [⟨"billing", ["x.billing"], [], []⟩, ⟨"orders", ["a.b"], [], []⟩,
    ⟨"shipping", ["x.shipping"], [], ["orders"]⟩]

def shop : ModuleGraph := ⟨shopSpecs⟩

/-- Declarations that are given in order are accepted as they are. -/
theorem ofSpecs_of_sorted
    (hsorted : specs.Pairwise fun a b => Decidable.decide (a.name ≤ b.name) = true)
    (hdependencies : specs.map (fun spec =>
      { spec with dependencies := Ascending.ofList spec.dependencies }) = specs)
    (hrepeated : firstRepeated [] (specs.map (·.name)) = none)
    (hundeclared : firstUndeclared specs = none) : ofSpecs specs = .ok ⟨specs⟩ := by
  have hordered : ordered specs = specs := by
    unfold ordered
    rw [hdependencies]
    exact List.mergeSort_of_pairwise hsorted
  unfold ofSpecs
  rw [hordered, hrepeated, hundeclared]

theorem ofSpecs_shopSpecs : ofSpecs shopSpecs = .ok shop :=
  ofSpecs_of_sorted (by decide) (by decide) (by decide) (by decide)

end ModuleGraph

end TestSelection
