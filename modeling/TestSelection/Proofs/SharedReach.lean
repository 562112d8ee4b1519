import Mathlib.Data.List.Find
import TestSelection.Proofs.AscendingListings
import TestSelection.Proofs.SkippedTests

/-!
What a verdict depends on. A traversal asks a graph about the modules that it reaches and about no
others, and so does the search for an owner of a changed unit. Two graphs that give the same answers
about everything a module reaches in one of them therefore connect it to the same modules and come
to the same decision, whatever else they declare.
-/

namespace TestSelection

/-- Two declarations of the same module with the same sets of packages, entities and
dependencies. -/
structure ModuleSpec.Alike (spec other : ModuleSpec) : Prop where
  name_eq : spec.name = other.name
  packages : ∀ base, base ∈ spec.packages ↔ base ∈ other.packages
  entities : ∀ identity, identity ∈ spec.entities ↔ identity ∈ other.entities
  dependencies : ∀ name, name ∈ spec.dependencies ↔ name ∈ other.dependencies

namespace ModuleSpec.Alike

variable {spec other : ModuleSpec}

theorem symm (h : spec.Alike other) : other.Alike spec where
  name_eq := h.name_eq.symm
  packages base := (h.packages base).symm
  entities identity := (h.entities identity).symm
  dependencies name := (h.dependencies name).symm

theorem owns_iff (h : spec.Alike other) {identity : String} :
    spec.Owns identity ↔ other.Owns identity := by
  simp only [Owns, h.entities, h.packages]

end ModuleSpec.Alike

namespace ModuleGraph

/-- Two graphs give the same answers about the module `name`. -/
structure AgreeAt (graph twin : ModuleGraph) (name : String) : Prop where
  dependencies : ∀ next, next ∈ graph.dependencies name ↔ next ∈ twin.dependencies name
  containsEntity : ∀ identity, graph.containsEntity name identity = twin.containsEntity name identity

variable {graph twin : ModuleGraph} {specs twins : List ModuleSpec} {name target : String}
variable {set : ChangeSet}

theorem agreeAt_of_alike (hgraph : ofSpecs specs = .ok graph) (htwin : ofSpecs twins = .ok twin)
    {spec other : ModuleSpec} (hspec : spec ∈ specs) (hother : other ∈ twins)
    (halike : spec.Alike other) : AgreeAt graph twin spec.name := by
  -- each name has one declaration, so what the graph says about it is what this one says
  have hleft : ∀ P : ModuleSpec → Prop,
      (∃ given ∈ specs, given.name = spec.name ∧ P given) ↔ P spec := by
    intro P
    constructor
    · rintro ⟨given, hgiven, hname, h⟩
      rwa [← eq_of_name_eq hgraph hgiven hspec hname]
    · exact fun h => ⟨spec, hspec, rfl, h⟩
  have hright : ∀ P : ModuleSpec → Prop,
      (∃ given ∈ twins, given.name = spec.name ∧ P given) ↔ P other := by
    intro P
    constructor
    · rintro ⟨given, hgiven, hname, h⟩
      rwa [← eq_of_name_eq htwin hgiven hother (hname.trans halike.name_eq)]
    · exact fun h => ⟨other, hother, halike.name_eq.symm, h⟩
  refine ⟨fun next => ?_, fun identity => Bool.eq_iff_iff.mpr ?_⟩
  · rw [mem_dependencies_iff_declared hgraph, mem_dependencies_iff_declared htwin, hleft, hright]
    exact halike.dependencies next
  · rw [containsEntity_iff_declared hgraph, containsEntity_iff_declared htwin, hleft, hright]
    exact halike.owns_iff

theorem Reaches.of_agreement (hagree : ∀ other, Reaches graph name other → AgreeAt graph twin other)
    (h : Reaches graph name target) : Reaches twin name target := by
  induction h with
  | refl _ => exact Reaches.refl _
  | step hnext _ ih =>
    have hfirst := ((hagree _ (Reaches.refl _)).dependencies _).mp hnext
    exact Reaches.step hfirst (ih fun other hother => hagree other (Reaches.step hnext hother))

theorem Reaches.to_agreement (hagree : ∀ other, Reaches graph name other → AgreeAt graph twin other)
    (h : Reaches twin name target) : Reaches graph name target := by
  induction h with
  | refl _ => exact Reaches.refl _
  | step hnext _ ih =>
    have hfirst := ((hagree _ (Reaches.refl _)).dependencies _).mpr hnext
    exact Reaches.step hfirst (ih fun other hother => hagree other (Reaches.step hfirst hother))

theorem reachable_eq_of_agreement
    (hagree : ∀ other, Reaches graph name other → AgreeAt graph twin other) :
    graph.reachable name = twin.reachable name := by
  refine Ascending.ofList_eq_of_mem_iff fun target => ?_
  rw [mem_visitOrder_iff, mem_visitOrder_iff]
  exact ⟨Reaches.of_agreement hagree, Reaches.to_agreement hagree⟩

theorem AgreeAt.hasChanges (h : AgreeAt graph twin name) :
    graph.hasChanges set name = twin.hasChanges set name := by
  have howner : graph.containsEntity name = twin.containsEntity name := funext h.containsEntity
  unfold ModuleGraph.hasChanges
  rw [howner]

theorem shouldRun_eq_of_agreement
    (hagree : ∀ other, Reaches graph name other → AgreeAt graph twin other) :
    graph.shouldRun name set = twin.shouldRun name set := by
  have hown : graph.hasChanges set name = twin.hasChanges set name :=
    (hagree name (Reaches.refl name)).hasChanges
  have hfirst : ((graph.reachable name).filter (· ≠ name)).find? (graph.hasChanges set) =
      ((twin.reachable name).filter (· ≠ name)).find? (twin.hasChanges set) := by
    rw [← reachable_eq_of_agreement hagree]
    refine List.find?_congr fun other hother => ?_
    have hreaches := (mem_reachable_iff _ _ _).mp (List.mem_filter.mp hother).1
    exact (hagree other hreaches).hasChanges
  unfold shouldRun
  rw [hown, hfirst]

/-- What a declared module reaches in an accepted graph is declared. -/
theorem Reaches.mem_names (hgraph : ofSpecs specs = .ok graph) (h : Reaches graph name target)
    (hname : name ∈ graph.names) : target ∈ graph.names :=
  h.mem_of_closed (fun _ _ _ hnext => mem_names_of_mem_dependencies hgraph hnext) hname

/-- Only the declarations of what a module reaches matter to it: a graph with the same ones connects
it to the same modules and comes to the same decision about it, reason included. -/
theorem independent_of_unreached (hgraph : ofSpecs specs = .ok graph)
    (htwin : ofSpecs twins = .ok twin) (hname : name ∈ graph.names)
    (hshared : ∀ spec ∈ specs, Reaches graph name spec.name → ∃ other ∈ twins, spec.Alike other) :
    graph.reachable name = twin.reachable name ∧
      ∀ set, graph.shouldRun name set = twin.shouldRun name set := by
  have hagree : ∀ other, Reaches graph name other → AgreeAt graph twin other := by
    intro other hreaches
    obtain ⟨spec, hspec, rfl⟩ :=
      (mem_names_iff_declared hgraph).mp (hreaches.mem_names hgraph hname)
    obtain ⟨declared, hdeclared, halike⟩ := hshared spec hspec hreaches
    exact agreeAt_of_alike hgraph htwin hspec hdeclared halike
  exact ⟨reachable_eq_of_agreement hagree, fun _ => shouldRun_eq_of_agreement hagree⟩

/-- Another shop with the same shipping and orders, where orders lists its package twice, billing
claims what it did not and depends on shipping, and returns are new. -/
def otherShopSpecs : List ModuleSpec :=
  [⟨"billing", ["a", "x.shipping"], ["a.b.Order"], ["shipping"]⟩,
    ⟨"orders", ["a.b", "a.b"], [], []⟩, ⟨"returns", ["a.b"], [], ["billing"]⟩,
    ⟨"shipping", ["x.shipping"], [], ["orders"]⟩]

/-- Shipping reaches orders and itself, and both shops declare these two alike. -/
theorem independent_of_unreached_in_shops :
    let twin : ModuleGraph := ⟨otherShopSpecs⟩
    let set := ChangeSet.ofList [.testCompilationUnit "a.b.OrderTest"]
    (∀ spec ∈ shopSpecs, Reaches shop "shipping" spec.name →
        ∃ other ∈ otherShopSpecs, spec.Alike other) ∧
      shop.reachable "shipping" = twin.reachable "shipping" ∧
      shop.shouldRun "shipping" set = twin.shouldRun "shipping" set := by
  intro twin set
  have htwin : ofSpecs otherShopSpecs = .ok twin :=
    ofSpecs_of_sorted (by decide) (by decide) (by decide) (by decide)
  have hshared : ∀ spec ∈ shopSpecs, Reaches shop "shipping" spec.name →
      ∃ other ∈ otherShopSpecs, spec.Alike other := by
    intro spec hspec hreaches
    have hname : spec.name ∈ ["shipping", "orders"] :=
      hreaches.mem_of_closed (by decide) (by decide)
    simp only [shopSpecs, List.mem_cons, List.not_mem_nil, or_false] at hspec
    rcases hspec with rfl | rfl | rfl
    · exact absurd hname (by decide)
    · exact ⟨⟨"orders", ["a.b", "a.b"], [], []⟩, by decide, ⟨rfl, by simp, by simp, by simp⟩⟩
    · exact ⟨⟨"shipping", ["x.shipping"], [], ["orders"]⟩, by decide,
        ⟨rfl, by simp, by simp, by simp⟩⟩
  have hsame := independent_of_unreached ofSpecs_shopSpecs htwin (by decide) hshared
  exact ⟨hshared, hsame.1, hsame.2 set⟩

end ModuleGraph

end TestSelection
