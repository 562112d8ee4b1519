import Mathlib.Data.List.Perm.Basic
import TestSelection.Proofs.LongestBase
import TestSelection.Proofs.SharedReach

/-!
Declarations are a set. Declarations in another order, with the entries of their lists in another
order or repeated, are accepted if and only if they were, and then the graph answers every question
as before. If they are refused although no name occurs twice, they are refused for the same reason;
of names that occur twice, the order decides which one is told.
-/

namespace TestSelection

/-- What the search for undeclared dependencies looks at: the name of a module, and what it depends
on as a set. -/
def ModuleSpec.outline (spec : ModuleSpec) : String × List String :=
  (spec.name, Ascending.ofList spec.dependencies)

theorem ModuleSpec.Alike.outline_eq {spec other : ModuleSpec} (h : spec.Alike other) :
    spec.outline = other.outline := by
  unfold ModuleSpec.outline
  rw [h.name_eq, Ascending.ofList_eq_of_mem_iff h.dependencies]

namespace ModuleGraph

variable {graph other : ModuleGraph} {specs others : List ModuleSpec}

/-- The second list has the declarations of the first in any order, each with the same entries in
its lists, which may be in another order and repeated. -/
def Redeclared (specs others : List ModuleSpec) : Prop :=
  ∃ reordered, specs.Perm reordered ∧ List.Forall₂ ModuleSpec.Alike reordered others

namespace Redeclared

theorem symm (h : Redeclared specs others) : Redeclared others specs := by
  obtain ⟨reordered, hperm, halike⟩ := h
  have hback : List.Forall₂ ModuleSpec.Alike others reordered :=
    (halike.imp fun _ _ h => h.symm).flip
  have hswap := List.forall₂_comp_perm_eq_perm_comp_forall₂ (r := ModuleSpec.Alike)
  exact (congrFun₂ hswap others specs).mp ⟨reordered, hback, hperm.symm⟩

theorem exists_alike (h : Redeclared specs others) {spec : ModuleSpec} (hspec : spec ∈ specs) :
    ∃ other ∈ others, spec.Alike other := by
  obtain ⟨reordered, hperm, halike⟩ := h
  have hmem : spec ∈ reordered := hperm.mem_iff.mp hspec
  clear hspec hperm
  induction halike with
  | nil => exact absurd hmem List.not_mem_nil
  | @cons first other rest others halike _ ih =>
    rcases List.mem_cons.mp hmem with rfl | hmem
    · exact ⟨other, List.mem_cons_self, halike⟩
    · obtain ⟨found, hfound, halike⟩ := ih hmem
      exact ⟨found, List.mem_cons_of_mem _ hfound, halike⟩

/-- Whether a name has a declaration with a property that does not depend on how the entries are
listed does not depend on how the declarations are listed. -/
theorem exists_iff (h : Redeclared specs others) {P : ModuleSpec → Prop}
    (hP : ∀ {spec other : ModuleSpec}, spec.Alike other → P spec → P other) {name : String} :
    (∃ spec ∈ specs, spec.name = name ∧ P spec) ↔ ∃ spec ∈ others, spec.name = name ∧ P spec := by
  constructor
  · rintro ⟨spec, hspec, rfl, h'⟩
    obtain ⟨found, hfound, halike⟩ := h.exists_alike hspec
    exact ⟨found, hfound, halike.name_eq.symm, hP halike h'⟩
  · rintro ⟨spec, hspec, rfl, h'⟩
    obtain ⟨found, hfound, halike⟩ := h.symm.exists_alike hspec
    exact ⟨found, hfound, halike.name_eq.symm, hP halike h'⟩

theorem hasBase_iff (h : Redeclared specs others) {name base : String} :
    HasBase specs name base ↔ HasBase others name base :=
  h.exists_iff fun halike hbase => (halike.packages _).mp hbase

theorem locates (h : Redeclared specs others) {package name base : String}
    (hlocates : Locates specs package name base) : Locates others package name base where
  hasBase := h.hasBase_iff.mp hlocates.hasBase
  liesIn := hlocates.liesIn
  best other otherBase hother := hlocates.best other otherBase (h.hasBase_iff.mpr hother)

theorem outlines_perm (h : Redeclared specs others) :
    (specs.map ModuleSpec.outline).Perm (others.map ModuleSpec.outline) := by
  obtain ⟨reordered, hperm, halike⟩ := h
  have heq : reordered.map ModuleSpec.outline = others.map ModuleSpec.outline := by
    rw [← List.forall₂_eq_eq_eq, List.forall₂_map_left_iff, List.forall₂_map_right_iff]
    exact halike.imp fun _ _ h => h.outline_eq
  rw [← heq]
  exact hperm.map _

theorem names_perm (h : Redeclared specs others) :
    (specs.map (·.name)).Perm (others.map (·.name)) := by
  simpa only [List.map_map, Function.comp_def, ModuleSpec.outline] using
    h.outlines_perm.map Prod.fst

end Redeclared

/-- The modules of a graph as the search for undeclared dependencies sees them. -/
def outlines (modules : List ModuleSpec) : List (String × List String) :=
  modules.map fun spec => (spec.name, spec.dependencies)

theorem firstUndeclared_eq_of_outlines {modules others : List ModuleSpec}
    (h : outlines modules = outlines others) :
    firstUndeclared modules = firstUndeclared others := by
  have hread : ∀ modules : List ModuleSpec, firstUndeclared modules =
      (outlines modules).findSome? fun seen =>
        (seen.2.find? fun next => (outlines modules).all fun other => other.1 ≠ next).map
          (GraphFault.undeclared seen.1) := by
    intro modules
    simp [firstUndeclared, outlines, List.findSome?_map, List.all_map, Function.comp_def]
  rw [hread modules, hread others, h]

theorem outlines_ordered_perm (specs : List ModuleSpec) :
    (outlines (ordered specs)).Perm (specs.map ModuleSpec.outline) := by
  unfold outlines ordered
  refine ((List.mergeSort_perm _ _).map _).trans ?_
  rw [List.map_map]
  exact List.Perm.refl _

/-- Distinct names can be put in ascending order in one way only. -/
theorem outlines_ordered_eq (h : Redeclared specs others)
    (hdistinct : (specs.map (·.name)).Nodup) :
    outlines (ordered specs) = outlines (ordered others) := by
  have hperm : (outlines (ordered specs)).Perm (outlines (ordered others)) :=
    (outlines_ordered_perm specs).trans
      (h.outlines_perm.trans (outlines_ordered_perm others).symm)
  have hsorted : ∀ specs : List ModuleSpec,
      (outlines (ordered specs)).Pairwise fun first second => first.1 ≤ second.1 :=
    fun _ => List.pairwise_map.mpr pairwise_names_ordered
  have hnames : ((outlines (ordered specs)).map Prod.fst).Nodup := by
    rw [((outlines_ordered_perm specs).map Prod.fst).nodup_iff]
    simpa only [List.map_map, Function.comp_def, ModuleSpec.outline] using hdistinct
  refine hperm.eq_of_pairwise ?_ (hsorted specs) (hsorted others)
  intro first second hfirst hsecond hle hge
  exact List.inj_on_of_nodup_map hnames hfirst (hperm.mem_iff.mpr hsecond)
    (String.le_antisymm hle hge)

theorem ofSpecs_of_nodup (hdistinct : (specs.map (·.name)).Nodup) :
    ofSpecs specs =
      match firstUndeclared (ordered specs) with
      | some fault => .error fault
      | none => .ok ⟨ordered specs⟩ := by
  have hnone : firstRepeated [] (specs.map (·.name)) = none :=
    firstRepeated_eq_none_iff.mpr ⟨hdistinct, by simp⟩
  cases hfault : firstUndeclared (ordered specs) with
  | none => simp only [ofSpecs, hnone, hfault]
  | some fault => simp only [ofSpecs, hnone, hfault]

/-- What is wrong with declarations of distinct names, if anything is, does not depend on how they
are listed. -/
theorem ofSpecs_error_of_redeclared (h : Redeclared specs others)
    (hdistinct : (specs.map (·.name)).Nodup) {fault : GraphFault} :
    ofSpecs specs = .error fault ↔ ofSpecs others = .error fault := by
  rw [ofSpecs_of_nodup hdistinct, ofSpecs_of_nodup (h.names_perm.nodup_iff.mp hdistinct),
    firstUndeclared_eq_of_outlines (outlines_ordered_eq h hdistinct)]
  cases firstUndeclared (ordered others) <;> simp

theorem ofSpecs_ok_of_redeclared (h : Redeclared specs others)
    (hgraph : ofSpecs specs = .ok graph) : ∃ other, ofSpecs others = .ok other := by
  cases hothers : ofSpecs others with
  | ok other => exact ⟨other, rfl⟩
  | error fault =>
    have hfault := (ofSpecs_error_of_redeclared h (nodup_of_ofSpecs hgraph)).mpr hothers
    rw [hgraph] at hfault
    cases hfault

/-- Two graphs give the same answer to every question. -/
structure SameAnswers (graph other : ModuleGraph) : Prop where
  names : graph.names = other.names
  dependencies : ∀ name, graph.dependencies name = other.dependencies name
  containsEntity : ∀ name identity,
    graph.containsEntity name identity = other.containsEntity name identity
  moduleForPackage : ∀ package, graph.moduleForPackage package = other.moduleForPackage package
  reachable : ∀ name, graph.reachable name = other.reachable name
  shouldRun : ∀ name set, graph.shouldRun name set = other.shouldRun name set

theorem agreeAt_of_redeclared (h : Redeclared specs others) (hgraph : ofSpecs specs = .ok graph)
    (hother : ofSpecs others = .ok other) (name : String) : AgreeAt graph other name := by
  refine ⟨fun next => ?_, fun identity => Bool.eq_iff_iff.mpr ?_⟩
  · rw [mem_dependencies_iff_declared hgraph, mem_dependencies_iff_declared hother]
    exact h.exists_iff fun halike hnext => (halike.dependencies next).mp hnext
  · rw [containsEntity_iff_declared hgraph, containsEntity_iff_declared hother]
    exact h.exists_iff fun halike howns => halike.owns_iff.mp howns

theorem names_eq_outlines (hgraph : ofSpecs specs = .ok graph) :
    graph.names = (outlines (ordered specs)).map Prod.fst := by
  unfold names outlines
  rw [modules_eq_of_ofSpecs hgraph, List.map_map]
  rfl

theorem pairwise_dependencies (hgraph : ofSpecs specs = .ok graph) (name : String) :
    (graph.dependencies name).Pairwise (· < ·) := by
  unfold dependencies
  cases hfind : graph.find? name with
  | none => simp
  | some spec =>
    obtain ⟨hspec, _⟩ := (find?_eq_some_iff (nodup_names_of_ofSpecs hgraph)).mp hfind
    rw [modules_eq_of_ofSpecs hgraph] at hspec
    obtain ⟨given, _, rfl⟩ := mem_ordered_iff.mp hspec
    exact Ascending.pairwise_ofList given.dependencies

theorem sameAnswers_of_redeclared (h : Redeclared specs others)
    (hgraph : ofSpecs specs = .ok graph) (hother : ofSpecs others = .ok other) :
    SameAnswers graph other := by
  have hagree := agreeAt_of_redeclared h hgraph hother
  refine ⟨?_, fun name => ?_, fun name => (hagree name).containsEntity, fun package => ?_,
    fun name => reachable_eq_of_agreement fun next _ => hagree next,
    fun name set => shouldRun_eq_of_agreement fun next _ => hagree next⟩
  · rw [names_eq_outlines hgraph, names_eq_outlines hother,
      outlines_ordered_eq h (nodup_of_ofSpecs hgraph)]
  · exact Ascending.eq_of_mem_iff (pairwise_dependencies hgraph name)
      (pairwise_dependencies hother name) (hagree name).dependencies
  · refine Option.ext fun name => ?_
    rw [moduleForPackage_eq_some_iff_locates hgraph, moduleForPackage_eq_some_iff_locates hother]
    exact ⟨fun ⟨base, hlocates⟩ => ⟨base, h.locates hlocates⟩,
      fun ⟨base, hlocates⟩ => ⟨base, h.symm.locates hlocates⟩⟩

/-- Neither the order of declarations nor order and repetition within their lists matters: both
lists are accepted or neither is, accepted ones give the same answers, and refused ones with
distinct names are refused for the same reason. -/
theorem order_and_repetition_free (h : Redeclared specs others) :
    ((∃ graph, ofSpecs specs = .ok graph) ↔ ∃ other, ofSpecs others = .ok other) ∧
    (∀ graph other, ofSpecs specs = .ok graph → ofSpecs others = .ok other →
      SameAnswers graph other) ∧
    ((specs.map (·.name)).Nodup →
      ∀ fault, ofSpecs specs = .error fault ↔ ofSpecs others = .error fault) := by
  refine ⟨⟨?_, ?_⟩, ?_, fun hdistinct fault => ofSpecs_error_of_redeclared h hdistinct⟩
  · rintro ⟨graph, hgraph⟩
    exact ofSpecs_ok_of_redeclared h hgraph
  · rintro ⟨other, hother⟩
    exact ofSpecs_ok_of_redeclared h.symm hother
  · exact fun graph other hgraph hother => sameAnswers_of_redeclared h hgraph hother

/-- The declarations of the shop from last to first, with repeated entries. -/
theorem order_and_repetition_free_in_shop :
    let others : List ModuleSpec :=
      [⟨"shipping", ["x.shipping"], [], ["orders", "orders"]⟩,
        ⟨"orders", ["a.b", "a.b"], [], []⟩, ⟨"billing", ["x.billing"], [], []⟩]
    Redeclared shopSpecs others ∧ ∃ other, ofSpecs others = .ok other ∧ SameAnswers shop other := by
  intro others
  have h : Redeclared shopSpecs others := by
    refine ⟨shopSpecs.reverse, (List.reverse_perm shopSpecs).symm, ?_⟩
    refine .cons ⟨rfl, ?_, ?_, ?_⟩ (.cons ⟨rfl, ?_, ?_, ?_⟩ (.cons ⟨rfl, ?_, ?_, ?_⟩ .nil)) <;> simp
  have hsame := order_and_repetition_free h
  obtain ⟨other, hother⟩ := hsame.1.mp ⟨shop, ofSpecs_shopSpecs⟩
  exact ⟨h, other, hother, hsame.2.1 shop other ofSpecs_shopSpecs hother⟩

end ModuleGraph

end TestSelection
