import TestSelection.Proofs.ComparedVerdicts
import TestSelection.Proofs.Traversals

/-!
Which module a decision names. Once some unit has changed, the decision about a module follows from
which of the modules that it is connected to own a changed unit: itself first, then the one of the
others that comes first by name, however far away it is. What else is known of the changes, whether
a unit is one of production or of tests and which other files have changed, plays no part.
-/

namespace TestSelection.ModuleGraph

variable {graph : ModuleGraph} {specs : List ModuleSpec} {set twin : ChangeSet}
variable {name other first : String} {decision : Decision}

/-- The module `name` is declared to own one of the changed units. -/
def OwnsChange (specs : List ModuleSpec) (set : ChangeSet) (name : String) : Prop :=
  ∃ spec ∈ specs, spec.name = name ∧ ∃ identity ∈ set.entities, spec.Owns identity

/-- The module `name` is connected to another module that owns one of the changed units. -/
structure HasChangedDependency (specs : List ModuleSpec) (set : ChangeSet) (name other : String) :
    Prop where
  connected : Relation.ReflTransGen (DependsOn specs) name other
  ne : other ≠ name
  owns : OwnsChange specs set other

/-- The decision that the owners of the changed units come to about the module `name`. -/
inductive DecidedByOwners (specs : List ModuleSpec) (set : ChangeSet) (name : String) :
    Decision → Prop
  | own (hown : OwnsChange specs set name) :
    DecidedByOwners specs set name ⟨.run, .changesIn name⟩
  | dependency {first : String} (hown : ¬ OwnsChange specs set name)
    (hfirst : HasChangedDependency specs set name first)
    (hleast : ∀ other, HasChangedDependency specs set name other → first ≤ other) :
    DecidedByOwners specs set name ⟨.run, .changesInDependency first name⟩
  | apart (hown : ¬ OwnsChange specs set name)
    (hnone : ∀ other, ¬ HasChangedDependency specs set name other) :
    DecidedByOwners specs set name ⟨.skip, .noChangesIn name⟩

theorem DecidedByOwners.unique {second : Decision} (h : DecidedByOwners specs set name decision)
    (hsecond : DecidedByOwners specs set name second) : decision = second := by
  cases h with
  | own hown =>
    cases hsecond with
    | own _ => rfl
    | dependency hother => exact absurd hown hother
    | apart hother => exact absurd hown hother
  | dependency hown hfirst hleast =>
    cases hsecond with
    | own hother => exact absurd hother hown
    | dependency _ hfirst' hleast' =>
      have heq := String.le_antisymm (hleast _ hfirst') (hleast' _ hfirst)
      rw [heq]
    | apart _ hnone => exact absurd hfirst (hnone _)
  | apart hown hnone =>
    cases hsecond with
    | own hother => exact absurd hother hown
    | dependency _ hfirst => exact absurd hfirst (hnone _)
    | apart _ _ => rfl

theorem ownsChange_congr
    (h : ∀ identity, identity ∈ twin.entities ↔ identity ∈ set.entities) :
    OwnsChange specs twin name ↔ OwnsChange specs set name := by
  simp only [OwnsChange, h]

theorem hasChangedDependency_congr
    (h : ∀ identity, identity ∈ twin.entities ↔ identity ∈ set.entities) :
    HasChangedDependency specs twin name other ↔ HasChangedDependency specs set name other := by
  constructor
  · intro hother
    exact ⟨hother.connected, hother.ne, (ownsChange_congr h).mp hother.owns⟩
  · intro hother
    exact ⟨hother.connected, hother.ne, (ownsChange_congr h).mpr hother.owns⟩

/-- Owners see the identities of the changed units and nothing else of the changes. -/
theorem DecidedByOwners.congr (h : ∀ identity, identity ∈ twin.entities ↔ identity ∈ set.entities)
    (hdecided : DecidedByOwners specs twin name decision) :
    DecidedByOwners specs set name decision := by
  cases hdecided with
  | own hown => exact own ((ownsChange_congr h).mp hown)
  | dependency hown hfirst hleast =>
    refine dependency (fun hother => hown ((ownsChange_congr h).mpr hother))
      ((hasChangedDependency_congr h).mp hfirst) ?_
    intro other hother
    exact hleast other ((hasChangedDependency_congr h).mpr hother)
  | apart hown hnone =>
    refine apart (fun hother => hown ((ownsChange_congr h).mpr hother)) ?_
    intro other hother
    exact hnone other ((hasChangedDependency_congr h).mpr hother)

theorem hasChanges_iff_ownsChange (hgraph : ofSpecs specs = .ok graph) :
    graph.hasChanges set name = true ↔ OwnsChange specs set name := by
  rw [hasChanges_iff]
  simp only [containsEntity_iff_declared hgraph]
  constructor
  · intro ⟨identity, hidentity, spec, hspec, hname, howns⟩
    exact ⟨spec, hspec, hname, identity, hidentity, howns⟩
  · intro ⟨spec, hspec, hname, identity, hidentity, howns⟩
    exact ⟨identity, hidentity, spec, hspec, hname, howns⟩

/-- The other modules that the traversal finds, in the order of their names. -/
def otherReachable (graph : ModuleGraph) (name : String) : List String :=
  (graph.reachable name).filter (· ≠ name)

theorem pairwise_otherReachable (graph : ModuleGraph) (name : String) :
    (graph.otherReachable name).Pairwise (· < ·) :=
  (Ascending.pairwise_ofList _).filter _

theorem hasChangedDependency_iff (hgraph : ofSpecs specs = .ok graph) :
    HasChangedDependency specs set name other ↔
      other ∈ graph.otherReachable name ∧ graph.hasChanges set other = true := by
  rw [otherReachable, List.mem_filter, mem_reachable_iff, reaches_iff_connected hgraph,
    hasChanges_iff_ownsChange hgraph, decide_eq_true_eq]
  constructor
  · intro h
    exact ⟨⟨h.connected, h.ne⟩, h.owns⟩
  · intro ⟨⟨hconnected, hne⟩, howns⟩
    exact ⟨hconnected, hne, howns⟩

/-- The search for a dependency with changes finds the first one by name. -/
theorem least_of_find? (hgraph : ofSpecs specs = .ok graph)
    (h : (graph.otherReachable name).find? (graph.hasChanges set) = some first) :
    HasChangedDependency specs set name first ∧
      ∀ other, HasChangedDependency specs set name other → first ≤ other := by
  have hasymm {a b : String} (hab : a < b) : ¬ b < a := fun hba =>
    String.lt_irrefl a (String.lt_trans hab hba)
  obtain ⟨hmem, hchanges, hleast⟩ :=
    (Ascending.find?_eq_some_iff_of_pairwise hasymm (pairwise_otherReachable graph name)).mp h
  refine ⟨(hasChangedDependency_iff hgraph).mpr ⟨hmem, hchanges⟩, ?_⟩
  intro other hother
  obtain ⟨hfound, howns⟩ := (hasChangedDependency_iff hgraph).mp hother
  rcases hleast other hfound howns with heq | hlt
  · subst heq
    exact String.le_refl other
  · exact String.not_lt.mp (hasymm hlt)

theorem shouldRun_of_unit (h : set.entities ≠ []) :
    graph.shouldRun name set =
      if graph.hasChanges set name then ⟨.run, .changesIn name⟩
      else
        match (graph.otherReachable name).find? (graph.hasChanges set) with
        | some dependency => ⟨.run, .changesInDependency dependency name⟩
        | none => ⟨.skip, .noChangesIn name⟩ := by
  rw [shouldRun, isEmpty_of_entities_ne_nil h, List.isEmpty_eq_false_iff.mpr h]
  rfl

theorem decidedByOwners_shouldRun (hgraph : ofSpecs specs = .ok graph) (h : set.entities ≠ []) :
    DecidedByOwners specs set name (graph.shouldRun name set) := by
  rw [shouldRun_of_unit h]
  by_cases hown : graph.hasChanges set name = true
  · rw [if_pos hown]
    exact .own ((hasChanges_iff_ownsChange hgraph).mp hown)
  · rw [if_neg hown]
    have howns : ¬ OwnsChange specs set name :=
      fun howns => hown ((hasChanges_iff_ownsChange hgraph).mpr howns)
    cases hfind : (graph.otherReachable name).find? (graph.hasChanges set) with
    | some first =>
      obtain ⟨hfirst, hleast⟩ := least_of_find? hgraph hfind
      exact .dependency howns hfirst hleast
    | none =>
      refine .apart howns ?_
      intro other hother
      obtain ⟨hmem, hchanges⟩ := (hasChangedDependency_iff hgraph).mp hother
      exact List.find?_eq_none.mp hfind other hmem hchanges

theorem shouldRun_eq_of_entities (hgraph : ofSpecs specs = .ok graph) (hunit : set.entities ≠ [])
    (h : ∀ identity, identity ∈ twin.entities ↔ identity ∈ set.entities) :
    graph.shouldRun name twin = graph.shouldRun name set := by
  obtain ⟨identity, hidentity⟩ := List.exists_mem_of_ne_nil _ hunit
  have htwin : twin.entities ≠ [] := List.ne_nil_of_mem ((h identity).mpr hidentity)
  have hdecided : DecidedByOwners specs set name (graph.shouldRun name twin) :=
    (decidedByOwners_shouldRun hgraph htwin).congr h
  exact hdecided.unique (decidedByOwners_shouldRun hgraph hunit)

/-- Once some unit has changed, the whole decision about a module is the one that the owners of the
changed units come to. So it is the same for all changes with these units, whether they are units of
production or of tests, whatever other files have changed with them and in whichever order the
changes were put together. -/
theorem decided_by_owners (hgraph : ofSpecs specs = .ok graph)
    (hunit : ∃ change ∈ set, change.entity? ≠ none) (name : String) :
    (∀ decision, graph.shouldRun name set = decision ↔
      DecidedByOwners specs set name decision) ∧
    (∀ twin : ChangeSet, (∀ identity, identity ∈ twin.entities ↔ identity ∈ set.entities) →
      graph.shouldRun name twin = graph.shouldRun name set) ∧
    ∀ changes : List Change,
      (∀ identity, (∃ change ∈ changes, change.entity? = some identity) ↔
        identity ∈ set.entities) →
      graph.shouldRun name (ChangeSet.ofList changes) = graph.shouldRun name set := by
  obtain ⟨change, hchange, hentity⟩ := hunit
  obtain ⟨identity, hidentity⟩ := Option.ne_none_iff_exists'.mp hentity
  have hentities : set.entities ≠ [] :=
    List.ne_nil_of_mem (ChangeSet.mem_entities_iff.mpr ⟨change, hchange, hidentity⟩)
  have hdecided : DecidedByOwners specs set name (graph.shouldRun name set) :=
    decidedByOwners_shouldRun hgraph hentities
  refine ⟨?_, ?_, ?_⟩
  · intro decision
    constructor
    · intro h
      rwa [h] at hdecided
    · intro h
      exact hdecided.unique h
  · intro twin htwin
    exact shouldRun_eq_of_entities hgraph hentities htwin
  · intro changes hchanges
    apply shouldRun_eq_of_entities hgraph hentities
    intro identity
    have hmem : identity ∈ (ChangeSet.ofList changes).entities ↔
        ∃ change ∈ changes, change.entity? = some identity :=
      ChangeSet.mem_entities_iff.trans
        (exists_congr fun change => and_congr_left fun _ => ChangeSet.mem_ofList)
    rw [hmem]
    exact hchanges identity

/-- A shop in which orders depend on billing by way of shipping, and billing depends on orders. -/
def owningSpecs : List ModuleSpec :=
  [⟨"billing", ["shop.billing"], [], ["orders"]⟩, ⟨"orders", ["shop.orders"], [], ["shipping"]⟩,
    ⟨"shipping", ["shop.shipping"], [], ["billing"]⟩]

/-- Billing comes before shipping by name, though it is further away from orders. -/
theorem decided_by_owners_in_circle :
    let circle : ModuleGraph := ⟨owningSpecs⟩
    let set := ChangeSet.ofList
      [.compilationUnit "shop.shipping.Parcel", .testCompilationUnit "shop.billing.BillTest"]
    ofSpecs owningSpecs = .ok circle ∧ (∃ change ∈ set, change.entity? ≠ none) ∧
      circle.shouldRun "orders" set = ⟨.run, .changesInDependency "billing" "orders"⟩ ∧
      circle.shouldRun "orders"
          (ChangeSet.ofList [.otherFile "README.md", .compilationUnit "shop.billing.BillTest",
            .compilationUnit "shop.shipping.Parcel"]) =
        ⟨.run, .changesInDependency "billing" "orders"⟩ := by
  intro circle set
  have hcircle : ofSpecs owningSpecs = .ok circle :=
    ofSpecs_of_sorted (by decide) (by decide) (by decide) (by decide)
  have hset : set.entities = ["shop.shipping.Parcel", "shop.billing.BillTest"] := by decide
  have hunit : ∃ change ∈ set, change.entity? ≠ none :=
    ⟨.compilationUnit "shop.shipping.Parcel", ChangeSet.mem_ofList.mpr (by decide), by decide⟩
  obtain ⟨hdecision, _, hchanges⟩ := decided_by_owners hcircle hunit "orders"
  have hbilling : HasChangedDependency owningSpecs set "orders" "billing" := by
    constructor
    · have hfirst : DependsOn owningSpecs "orders" "shipping" :=
        ⟨⟨"orders", ["shop.orders"], [], ["shipping"]⟩, by decide, rfl, by decide⟩
      have hsecond : DependsOn owningSpecs "shipping" "billing" :=
        ⟨⟨"shipping", ["shop.shipping"], [], ["billing"]⟩, by decide, rfl, by decide⟩
      exact (Relation.ReflTransGen.single hfirst).tail hsecond
    · decide
    · exact (hasChanges_iff_ownsChange hcircle).mp (by decide)
  have hleast : ∀ other, HasChangedDependency owningSpecs set "orders" other →
      "billing" ≤ other := by
    intro other hother
    obtain ⟨spec, hspec, hname, _⟩ := hother.owns
    have hfirst : ∀ spec ∈ owningSpecs, "billing" ≤ spec.name := by decide
    exact hname ▸ hfirst spec hspec
  have hown : ¬ OwnsChange owningSpecs set "orders" := by
    rw [← hasChanges_iff_ownsChange hcircle]
    decide
  have hnamed : circle.shouldRun "orders" set = ⟨.run, .changesInDependency "billing" "orders"⟩ :=
    (hdecision _).mpr (.dependency hown hbilling hleast)
  refine ⟨hcircle, hunit, hnamed, ?_⟩
  rw [hchanges, hnamed]
  intro identity
  rw [hset]
  simp [Change.entity?, or_comm, eq_comm]

end TestSelection.ModuleGraph
