import Mathlib.Data.List.Cycle
import TestSelection.Proofs.SkippedTests

/-!
How verdicts compare with each other. Whether a module has to run depends on the changed units that
it reaches. A module that another one reaches reaches nothing more than that one, so skipping
spreads along dependencies and around cycles. More declarations and more changes can only be
reached more, so a module that runs because some unit has changed goes on running. Where no unit
has changed everything runs, and the first changed unit may well turn this into skipping.
-/

namespace TestSelection

/-- `larger` declares the same module with at least the same packages, entities and
dependencies. -/
structure ModuleSpec.GrowsTo (spec larger : ModuleSpec) : Prop where
  name_eq : larger.name = spec.name
  packages : ∀ base ∈ spec.packages, base ∈ larger.packages
  entities : ∀ identity ∈ spec.entities, identity ∈ larger.entities
  dependencies : ∀ name ∈ spec.dependencies, name ∈ larger.dependencies

instance (spec larger : ModuleSpec) : Decidable (spec.GrowsTo larger) :=
  decidable_of_iff (larger.name = spec.name ∧ (∀ base ∈ spec.packages, base ∈ larger.packages) ∧
      (∀ identity ∈ spec.entities, identity ∈ larger.entities) ∧
      ∀ name ∈ spec.dependencies, name ∈ larger.dependencies)
    ⟨fun ⟨hname, hpackages, hentities, hdependencies⟩ =>
        ⟨hname, hpackages, hentities, hdependencies⟩,
      fun h => ⟨h.name_eq, h.packages, h.entities, h.dependencies⟩⟩

theorem ModuleSpec.GrowsTo.owns {spec larger : ModuleSpec} (h : spec.GrowsTo larger)
    {identity : String} (howns : spec.Owns identity) : larger.Owns identity := by
  rcases howns with hlisted | ⟨base, hbase, hwithin⟩
  · exact Or.inl (h.entities identity hlisted)
  · exact Or.inr ⟨base, h.packages base hbase, hwithin⟩

theorem ChangeSet.mem_entities_iff {set : ChangeSet} {identity : String} :
    identity ∈ set.entities ↔ ∃ change ∈ set, change.entity? = some identity :=
  List.mem_filterMap

namespace ModuleGraph

variable {graph larger : ModuleGraph} {specs moreSpecs : List ModuleSpec}
variable {set more : ChangeSet} {name other : String}

theorem ReachesChanges.of_reaches (hreaches : Reaches graph name other)
    (h : ReachesChanges graph set other) : ReachesChanges graph set name := by
  obtain ⟨owner, howner, hchanges⟩ := h
  exact ⟨owner, hreaches.trans howner, hchanges⟩

/-- What a module reaches is itself and what its dependencies reach. -/
theorem reachesChanges_iff_step :
    ReachesChanges graph set name ↔ graph.hasChanges set name = true ∨
      ∃ next ∈ graph.dependencies name, ReachesChanges graph set next := by
  constructor
  · rintro ⟨owner, hreaches, hchanges⟩
    cases hreaches with
    | refl => exact Or.inl hchanges
    | step hnext hreaches => exact Or.inr ⟨_, hnext, owner, hreaches, hchanges⟩
  · rintro (hchanges | ⟨next, hnext, h⟩)
    · exact ⟨name, Reaches.refl name, hchanges⟩
    · exact h.of_reaches (Reaches.step hnext (Reaches.refl next))

theorem skip_of_reaches (hreaches : Reaches graph name other)
    (hskip : (graph.shouldRun name set).verdict = .skip) :
    (graph.shouldRun other set).verdict = .skip := by
  obtain ⟨hunit, hunreached⟩ := shouldRun_skip_iff.mp hskip
  exact shouldRun_skip_iff.mpr ⟨hunit, fun h => hunreached (h.of_reaches hreaches)⟩

theorem verdict_eq_of_reaches (hthere : Reaches graph name other)
    (hback : Reaches graph other name) :
    (graph.shouldRun name set).verdict = (graph.shouldRun other set).verdict := by
  cases hverdict : (graph.shouldRun name set).verdict with
  | skip => exact (skip_of_reaches hthere hverdict).symm
  | run =>
    refine (Verdict.eq_run_iff.mpr fun hskip => ?_).symm
    exact Verdict.eq_run_iff.mp hverdict (skip_of_reaches hback hskip)

/-- Modules on a cycle of dependencies reach each other. -/
theorem reaches_of_cycle {cycle : Cycle String}
    (hcycle : cycle.Chain fun name next => next ∈ graph.dependencies name) (hname : name ∈ cycle)
    (hother : other ∈ cycle) : Reaches graph name other := by
  have htrans : IsTrans String (Reaches graph) := ⟨fun _ _ _ => Reaches.trans⟩
  have hreaches : cycle.Chain (Reaches graph) :=
    hcycle.imp fun name next hnext => Reaches.step hnext (Reaches.refl next)
  exact Cycle.chain_iff_pairwise.mp hreaches name hname other hother

/-- If a module is skipped, so is every module that it reaches. Modules on a common cycle of
dependencies are skipped or run together. A module is skipped exactly if some unit has changed, it
owns none that has, and everything it depends on is skipped. -/
theorem skip_spreads (graph : ModuleGraph) (set : ChangeSet) :
    (∀ name other, Reaches graph name other →
      (graph.shouldRun name set).verdict = .skip → (graph.shouldRun other set).verdict = .skip) ∧
    (∀ cycle : Cycle String, cycle.Chain (fun name next => next ∈ graph.dependencies name) →
      ∀ name ∈ cycle, ∀ other ∈ cycle,
        (graph.shouldRun name set).verdict = (graph.shouldRun other set).verdict) ∧
    ∀ name, (graph.shouldRun name set).verdict = .skip ↔
      set.entities ≠ [] ∧ graph.hasChanges set name = false ∧
        ∀ next ∈ graph.dependencies name, (graph.shouldRun next set).verdict = .skip := by
  refine ⟨fun name other => skip_of_reaches, ?_, ?_⟩
  · intro cycle hcycle name hname other hother
    exact verdict_eq_of_reaches (reaches_of_cycle hcycle hname hother)
      (reaches_of_cycle hcycle hother hname)
  · intro name
    simp only [shouldRun_skip_iff]
    rw [reachesChanges_iff_step, not_or, Bool.not_eq_true]
    constructor
    · rintro ⟨hunit, hown, hnext⟩
      exact ⟨hunit, hown, fun next hmem => ⟨hunit, fun h => hnext ⟨next, hmem, h⟩⟩⟩
    · rintro ⟨hunit, hown, hnext⟩
      exact ⟨hunit, hown, fun ⟨next, hmem, h⟩ => (hnext next hmem).2 h⟩

theorem mem_dependencies_of_growth (hgraph : ofSpecs specs = .ok graph)
    (hlarger : ofSpecs moreSpecs = .ok larger)
    (hgrowth : ∀ spec ∈ specs, ∃ grown ∈ moreSpecs, spec.GrowsTo grown) {next : String}
    (h : next ∈ graph.dependencies name) : next ∈ larger.dependencies name := by
  obtain ⟨spec, hspec, rfl, hnext⟩ := (mem_dependencies_iff_declared hgraph).mp h
  obtain ⟨grown, hgrown, hgrowsTo⟩ := hgrowth spec hspec
  exact (mem_dependencies_iff_declared hlarger).mpr
    ⟨grown, hgrown, hgrowsTo.name_eq, hgrowsTo.dependencies next hnext⟩

theorem hasChanges_of_growth (hgraph : ofSpecs specs = .ok graph)
    (hlarger : ofSpecs moreSpecs = .ok larger)
    (hgrowth : ∀ spec ∈ specs, ∃ grown ∈ moreSpecs, spec.GrowsTo grown)
    (hset : ∀ change ∈ set, change ∈ more) (h : graph.hasChanges set name = true) :
    larger.hasChanges more name = true := by
  obtain ⟨identity, hidentity, hcontains⟩ := hasChanges_iff.mp h
  obtain ⟨change, hchange, hentity⟩ := ChangeSet.mem_entities_iff.mp hidentity
  obtain ⟨spec, hspec, rfl, howns⟩ := (containsEntity_iff_declared hgraph).mp hcontains
  obtain ⟨grown, hgrown, hgrowsTo⟩ := hgrowth spec hspec
  refine hasChanges_iff.mpr ⟨identity,
    ChangeSet.mem_entities_iff.mpr ⟨change, hset change hchange, hentity⟩, ?_⟩
  exact (containsEntity_iff_declared hlarger).mpr
    ⟨grown, hgrown, hgrowsTo.name_eq, hgrowsTo.owns howns⟩

/-- A module that runs although some unit is known to have changed still runs when declarations
and changes are added. -/
theorem run_of_growth (hgraph : ofSpecs specs = .ok graph) (hlarger : ofSpecs moreSpecs = .ok larger)
    (hgrowth : ∀ spec ∈ specs, ∃ grown ∈ moreSpecs, spec.GrowsTo grown)
    (hset : ∀ change ∈ set, change ∈ more) (hunit : ∃ change ∈ set, change.entity? ≠ none)
    (name : String) (hrun : (graph.shouldRun name set).verdict = .run) :
    (larger.shouldRun name more).verdict = .run := by
  obtain ⟨change, hchange, hentity⟩ := hunit
  obtain ⟨identity, hidentity⟩ := Option.ne_none_iff_exists'.mp hentity
  have hentities : set.entities ≠ [] :=
    List.ne_nil_of_mem (ChangeSet.mem_entities_iff.mpr ⟨change, hchange, hidentity⟩)
  have hreached : ReachesChanges graph set name := by
    by_contra hunreached
    exact Verdict.eq_run_iff.mp hrun (shouldRun_skip_iff.mpr ⟨hentities, hunreached⟩)
  obtain ⟨owner, howner, hchanges⟩ := hreached
  have hgrown : ReachesChanges larger more name :=
    ⟨owner, howner.mono fun _ _ => mem_dependencies_of_growth hgraph hlarger hgrowth,
      hasChanges_of_growth hgraph hlarger hgrowth hset hchanges⟩
  exact Verdict.eq_run_iff.mpr fun hskip => (shouldRun_skip_iff.mp hskip).2 hgrown

/-- The shop with a module for returns, on which billing now depends, and with more that belongs to
orders. -/
def grownShopSpecs : List ModuleSpec :=
  [⟨"billing", ["x.billing"], [], ["returns"]⟩, ⟨"orders", ["a.b", "a.c"], ["gen.OrderApi"], []⟩,
    ⟨"returns", ["x.returns"], [], ["orders", "shipping"]⟩,
    ⟨"shipping", ["x.shipping"], [], ["orders"]⟩]

theorem run_of_growth_in_shop :
    let set := ChangeSet.ofList [.testCompilationUnit "a.b.OrderTest"]
    let more := ChangeSet.ofList
      [.testCompilationUnit "a.b.OrderTest", .compilationUnit "y.Y", .otherFile "README.md"]
    (shop.shouldRun "shipping" set).verdict = .run ∧
      ((⟨grownShopSpecs⟩ : ModuleGraph).shouldRun "shipping" more).verdict = .run := by
  intro set more
  have hlarger : ofSpecs grownShopSpecs = .ok ⟨grownShopSpecs⟩ :=
    ofSpecs_of_sorted (by decide) (by decide) (by decide) (by decide)
  have hgrowth : ∀ spec ∈ shopSpecs, ∃ grown ∈ grownShopSpecs, spec.GrowsTo grown := by decide
  have hset : ∀ change ∈ set, change ∈ more := by
    intro change hchange
    exact ChangeSet.mem_ofList.mpr
      (List.mem_cons.mpr (Or.inl (List.mem_singleton.mp (ChangeSet.mem_ofList.mp hchange))))
  have hunit : ∃ change ∈ set, change.entity? ≠ none :=
    ⟨.testCompilationUnit "a.b.OrderTest", ChangeSet.mem_ofList.mpr (by decide), by decide⟩
  have hreaches : ReachesChanges shop set "shipping" :=
    ⟨"orders", Reaches.step (by decide) (Reaches.refl "orders"), by decide⟩
  have hrun : (shop.shouldRun "shipping" set).verdict = .run :=
    Verdict.eq_run_iff.mpr fun hskip => (shouldRun_skip_iff.mp hskip).2 hreaches
  exact ⟨hrun, run_of_growth ofSpecs_shopSpecs hlarger hgrowth hset hunit "shipping" hrun⟩

end ModuleGraph

end TestSelection
