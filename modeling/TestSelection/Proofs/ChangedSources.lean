import TestSelection.Proofs.SkippedTests

/-!
No changed source file is missed. What a path is classified as and what a module owns are decided
by taking a dotted name apart in different places: the directories of the path are joined, and the
package of the result is cut off again. Whatever dots the names contain, a unit below a base
package belongs to the module of that package, and the module that a test class is located in owns
the class. So a test whose own source, or a source that its module reaches, has changed runs.
-/

namespace TestSelection

namespace Selector

variable {selector : Selector} {read : BaselineReader} {graph : ModuleGraph}
variable {standing : Standing} {candidate : TestCandidate} {set : ChangeSet}

/-- A candidate runs when a module that its own module reaches owns a changed unit. -/
theorem evaluate_run_of_containsEntity
    (hfound : (selector.outcome read standing).value.1 = .changes set) {identity : String}
    (hchanged : identity ∈ set.entities) {name : String} (hclass : candidate.method = none)
    (hlocated : graph.moduleForPackage candidate.package = some name) {other : String}
    (hreaches : ModuleGraph.Reaches graph name other)
    (howns : graph.containsEntity other identity = true) :
    (selector.evaluate read graph standing candidate).value.1.verdict = .run := by
  rw [evaluate_of_module? selector read graph standing candidate
    (module?_eq_some_iff.mpr ⟨hclass, hlocated⟩), hfound, Verdict.eq_run_iff]
  intro hskip
  have hchanges : ModuleGraph.ReachesChanges graph set name :=
    ⟨other, hreaches, ModuleGraph.hasChanges_iff.mpr ⟨identity, hchanged, howns⟩⟩
  exact (ModuleGraph.shouldRun_skip_iff.mp hskip).2 hchanges

end Selector

namespace ModuleGraph

variable {graph : ModuleGraph} {specs : List ModuleSpec}

/-- The module that the package of an identity is located in owns the identity. -/
theorem containsEntity_of_moduleForPackage (h : ofSpecs specs = .ok graph) {identity name : String}
    (hlocated : graph.moduleForPackage (packageOf identity) = some name) :
    graph.containsEntity name identity = true := by
  obtain ⟨spec, hspec, hname, hbase⟩ := exists_base_of_moduleForPackage hlocated
  exact (containsEntity_iff_owns (nodup_names_of_ofSpecs h)).mpr
    ⟨spec, hspec, hname, Or.inr hbase⟩

/-- Where the package of an identity has no module, only lists of entities own the identity. -/
theorem containsEntity_iff_listed (h : ofSpecs specs = .ok graph) {identity name : String}
    (hlocated : graph.moduleForPackage (packageOf identity) = none) :
    graph.containsEntity name identity = true ↔
      ∃ spec ∈ specs, spec.name = name ∧ identity ∈ spec.entities := by
  rw [containsEntity_iff_declared h]
  constructor
  · rintro ⟨spec, hspec, hname, howns⟩
    refine ⟨spec, hspec, hname, howns.resolve_right ?_⟩
    rintro ⟨base, hbase, hwithin⟩
    have hmodule := mem_ordered_iff.mpr ⟨spec, hspec, rfl⟩
    rw [← modules_eq_of_ofSpecs h] at hmodule
    exact not_liesIn_of_moduleForPackage hlocated hmodule hbase hwithin
  · rintro ⟨spec, hspec, hname, hlisted⟩
    exact ⟨spec, hspec, hname, Or.inl hlisted⟩

/-- Every changed unit below a base package runs the candidates of the module that declares the
base and of the modules that reach it, whatever else has changed. -/
theorem evaluate_run_of_unit_below_base (h : ofSpecs specs = .ok graph) (selector : Selector)
    (read : BaselineReader) (standing : Selector.Standing) (paths : List String)
    (hfound : (selector.outcome read standing).value.1 = .changes (selector.layout.changes paths))
    {path identity file : String} {directories : List String} (hpath : path ∈ paths)
    (hunit : selector.layout.IsUnit path identity)
    (hbelow : selector.layout.BelowRoot (SourceLayout.pathSegments path) (directories ++ [file]))
    {spec : ModuleSpec} (hspec : spec ∈ specs) {base : String} (hbase : base ∈ spec.packages)
    (hnonempty : base ≠ "") (hwithin : LiesIn (Text.joinWith "." directories) base)
    (candidate : TestCandidate) (hclass : candidate.method = none) {name : String}
    (hlocated : graph.moduleForPackage candidate.package = some name)
    (hreaches : Reaches graph name spec.name) :
    (selector.evaluate read graph standing candidate).value.1.verdict = .run := by
  have hpackage := SourceLayout.packageOf_isUnit_liesIn hunit hbelow hnonempty hwithin
  have howns : graph.containsEntity spec.name identity = true :=
    (containsEntity_iff_declared h).mpr ⟨spec, hspec, rfl, Or.inr ⟨base, hbase, hpackage⟩⟩
  exact Selector.evaluate_run_of_containsEntity hfound
    (SourceLayout.mem_entities_changes.mpr ⟨path, hpath, hunit⟩) hclass hlocated hreaches howns

/-- A directory and a file name with dots in them, below a base that another module reaches. -/
theorem evaluate_run_of_dotted_names :
    let paths := ["README.md", "m/src/main/java/a/b/v1.2/Order.Line.java"]
    let source := ChangeSource.custom "scripted" "scripted" fun _ => .ok paths
    let selector : Selector := ⟨"repo", source, .default⟩
    (selector.evaluate (fun _ => Logged.pure (.ok [])) shop ⟨0, {}⟩
      ⟨"x.shipping.CartTest", none⟩).value.1.verdict = .run := by
  intro paths source selector
  have hbelow : SourceLayout.default.BelowRoot
      (SourceLayout.pathSegments "m/src/main/java/a/b/v1.2/Order.Line.java")
      (["a", "b", "v1.2"] ++ ["Order.Line.java"]) :=
    SourceLayout.belowRoot_of_main (by decide)
      fun other hother => absurd hother (SourceLayout.afterLast_eq_none (by decide) other)
  have hpath : "m/src/main/java/a/b/v1.2/Order.Line.java" ∈ paths := by decide
  have hunit : selector.layout.IsUnit "m/src/main/java/a/b/v1.2/Order.Line.java"
      "a.b.v1.2.Order.Line" := Or.inl (by decide)
  have hspec : (⟨"orders", ["a.b"], [], []⟩ : ModuleSpec) ∈ shopSpecs := by decide
  have hwithin : LiesIn (Text.joinWith "." ["a", "b", "v1.2"]) "a.b" := Or.inr ⟨"v1.2", by decide⟩
  have hlocated : shop.moduleForPackage "x.shipping" = some "shipping" := by decide
  have hreaches : Reaches shop "shipping" "orders" :=
    Reaches.step (by decide) (Reaches.refl "orders")
  exact evaluate_run_of_unit_below_base ofSpecs_shopSpecs selector _ ⟨0, {}⟩ paths (by decide)
    hpath hunit hbelow hspec List.mem_cons_self (by decide) hwithin ⟨"x.shipping.CartTest", none⟩
    rfl hlocated hreaches

/-- Location and ownership agree, so a changed unit runs its own test class and the classes of all
modules that reach the module of its package. -/
theorem location_agrees_with_ownership (h : ofSpecs specs = .ok graph) (identity : String) :
    (∀ name, graph.moduleForPackage (packageOf identity) = some name →
      graph.containsEntity name identity = true) ∧
    (graph.moduleForPackage (packageOf identity) = none → ∀ name,
      graph.containsEntity name identity = true ↔
        ∃ spec ∈ specs, spec.name = name ∧ identity ∈ spec.entities) ∧
    ∀ (selector : Selector) (read : BaselineReader) (standing : Selector.Standing)
      (set : ChangeSet), (selector.outcome read standing).value.1 = .changes set →
      .compilationUnit identity ∈ set ∨ .testCompilationUnit identity ∈ set →
      (selector.evaluate read graph standing ⟨identity, none⟩).value.1.verdict ≠ .skip ∧
      ∀ name, graph.moduleForPackage (packageOf identity) = some name →
        ∀ (candidate : TestCandidate) (located : String), candidate.method = none →
          graph.moduleForPackage candidate.package = some located →
          Reaches graph located name →
          (selector.evaluate read graph standing candidate).value.1.verdict ≠ .skip := by
  refine ⟨fun name => containsEntity_of_moduleForPackage h,
    fun hnone name => containsEntity_iff_listed h hnone, ?_⟩
  intro selector read standing set hfound hset
  have hchanged : identity ∈ set.entities := by
    rcases hset with hset | hset
    · exact List.mem_filterMap.mpr ⟨_, hset, rfl⟩
    · exact List.mem_filterMap.mpr ⟨_, hset, rfl⟩
  have hreaching : ∀ name, graph.moduleForPackage (packageOf identity) = some name →
      ∀ (candidate : TestCandidate) (located : String), candidate.method = none →
        graph.moduleForPackage candidate.package = some located → Reaches graph located name →
        (selector.evaluate read graph standing candidate).value.1.verdict ≠ .skip := by
    intro name hname candidate located hclass hlocated hreaches
    exact Verdict.eq_run_iff.mp (Selector.evaluate_run_of_containsEntity hfound hchanged hclass
      hlocated hreaches (containsEntity_of_moduleForPackage h hname))
  refine ⟨?_, hreaching⟩
  cases hlocated : graph.moduleForPackage (packageOf identity) with
  | none =>
    rw [Selector.evaluate_of_unlocated selector read graph standing ⟨identity, none⟩ hlocated]
    exact Verdict.eq_run_iff.mp (Selector.unlocated_run _)
  | some name =>
    exact hreaching name hlocated ⟨identity, none⟩ name rfl hlocated (Reaches.refl name)

/-- A changed class of orders, which shipping reaches. -/
theorem location_agrees_with_ownership_in_shop :
    let set := ChangeSet.ofList [.compilationUnit "a.b.Order"]
    let source := ChangeSource.custom "scripted" "scripted" fun _ =>
      .ok ["m/src/main/java/a/b/Order.java"]
    let selector : Selector := ⟨"repo", source, .default⟩
    let read : BaselineReader := fun _ => Logged.pure (.ok [])
    shop.containsEntity "orders" "a.b.Order" = true ∧
      (selector.outcome read ⟨0, {}⟩).value.1 = .changes set ∧
      (selector.evaluate read shop ⟨0, {}⟩ ⟨"a.b.Order", none⟩).value.1.verdict ≠ .skip ∧
      (selector.evaluate read shop ⟨0, {}⟩
        ⟨"x.shipping.CartTest", none⟩).value.1.verdict ≠ .skip := by
  intro set source selector read
  have hfound : (selector.outcome read ⟨0, {}⟩).value.1 = .changes set := by decide
  obtain ⟨howned, _, hrun⟩ := location_agrees_with_ownership ofSpecs_shopSpecs "a.b.Order"
  have hset : .compilationUnit "a.b.Order" ∈ set := ChangeSet.mem_ofList.mpr (by decide)
  obtain ⟨hitself, hreaching⟩ := hrun selector read ⟨0, {}⟩ set hfound (Or.inl hset)
  exact ⟨howned "orders" (by decide), hfound, hitself,
    hreaching "orders" (by decide) ⟨"x.shipping.CartTest", none⟩ "shipping" rfl (by decide)
      (Reaches.step (by decide) (Reaches.refl "orders"))⟩

end ModuleGraph

end TestSelection
