import TestSelection.Proofs.LongestBase
import TestSelection.Proofs.Segments

/-!
Which module a package is located in, by segments. A base covers a package if its segments begin
those of the package. Of two bases of one package the shorter one has fewer segments, so the module
of the package is the first by name of those that declare the covering base with the most segments.
-/

namespace TestSelection

variable {package base other : String}

/-- Of two bases of a package, the one with fewer segments is the shorter one. -/
theorem length_lt_of_segments_lt (hbase : LiesIn package base) (hother : LiesIn package other)
    (h : (Text.segments base).length < (Text.segments other).length) :
    base.length < other.length := by
  have hnested : Text.segments base <+: Text.segments other :=
    List.prefix_of_prefix_length_le (liesIn_iff_segments.mp hbase) (liesIn_iff_segments.mp hother)
      (Nat.le_of_lt h)
  have hle : base.length ≤ other.length := by
    have hprefix := (liesIn_iff_segments.mpr hnested).isPrefix.length_le
    rwa [String.length_toList, String.length_toList] at hprefix
  have hne : base.length ≠ other.length := by
    intro hlength
    rw [hbase.eq_of_length_eq hother hlength] at h
    exact Nat.lt_irrefl _ h
  omega

namespace ModuleGraph

variable {graph : ModuleGraph} {specs : List ModuleSpec} {name : String}

/-- The module `name` declares `base`, whose segments begin those of `package`. -/
structure Covers (specs : List ModuleSpec) (package name base : String) : Prop where
  declared : ∃ spec ∈ specs, spec.name = name ∧ base ∈ spec.packages
  segments : Text.segments base <+: Text.segments package

/-- The module `name` is the first by name that declares `base`, and no base with more segments
covers the package. -/
structure CoversBest (specs : List ModuleSpec) (package name base : String) : Prop where
  covers : Covers specs package name base
  longest : ∀ other otherBase, Covers specs package other otherBase →
    (Text.segments otherBase).length ≤ (Text.segments base).length
  first : ∀ other, Covers specs package other base → name ≤ other

theorem covers_iff : Covers specs package name base ↔
    HasBase specs name base ∧ LiesIn package base := by
  rw [liesIn_iff_segments]
  constructor
  · intro h
    exact ⟨h.declared, h.segments⟩
  · intro h
    exact ⟨h.1, h.2⟩

theorem locates_iff_coversBest :
    Locates specs package name base ↔ CoversBest specs package name base := by
  constructor
  · intro h
    refine ⟨covers_iff.mpr ⟨h.hasBase, h.liesIn⟩, ?_, ?_⟩
    · intro other otherBase hother
      obtain ⟨hdeclared, hwithin⟩ := covers_iff.mp hother
      by_contra hmore
      have hlonger : base.length < otherBase.length :=
        length_lt_of_segments_lt h.liesIn hwithin (Nat.lt_of_not_le hmore)
      rcases h.best other otherBase hdeclared hwithin with hshorter | ⟨hsame, _⟩
      · omega
      · rw [hsame] at hlonger
        exact Nat.lt_irrefl _ hlonger
    · intro other hother
      rcases h.best other base hother.declared h.liesIn with hshorter | ⟨_, hname⟩
      · exact absurd hshorter (Nat.lt_irrefl _)
      · exact hname
  · intro h
    obtain ⟨hdeclared, hwithin⟩ := covers_iff.mp h.covers
    refine ⟨hdeclared, hwithin, ?_⟩
    intro other otherBase hother hotherWithin
    have hcovers : Covers specs package other otherBase := covers_iff.mpr ⟨hother, hotherWithin⟩
    by_cases hsame : otherBase = base
    · subst hsame
      exact Or.inr ⟨rfl, h.first other hcovers⟩
    · left
      -- Bases with the same number of segments begin the package alike.
      have hfewer : (Text.segments otherBase).length < (Text.segments base).length := by
        refine Nat.lt_of_le_of_ne (h.longest other otherBase hcovers) ?_
        intro hlength
        have hnested := List.prefix_of_prefix_length_le hcovers.segments h.covers.segments
          (Nat.le_of_eq hlength)
        exact hsame (Text.eq_of_segments_eq (hnested.eq_of_length hlength))
      exact length_lt_of_segments_lt hotherWithin hwithin hfewer

/-- The module of a package is the first by name of those that declare the base whose segments begin
those of the package and are the most in number. There is none if and only if no declared base
begins the package in this way. -/
theorem located_by_segments (h : ofSpecs specs = .ok graph) (package : String) :
    (∀ name, graph.moduleForPackage package = some name ↔
      ∃ base, CoversBest specs package name base) ∧
    (graph.moduleForPackage package = none ↔ ∀ name base, ¬ Covers specs package name base) := by
  have hsome (name : String) : graph.moduleForPackage package = some name ↔
      ∃ base, CoversBest specs package name base := by
    rw [moduleForPackage_eq_some_iff_locates h]
    exact exists_congr fun base => locates_iff_coversBest
  refine ⟨hsome, ?_⟩
  constructor
  · intro hnone name base hcovers
    obtain ⟨⟨spec, hspec, _, hbase⟩, hsegments⟩ := hcovers
    have hplace := mem_ordered_iff.mpr ⟨spec, hspec, rfl⟩
    rw [← modules_eq_of_ofSpecs h] at hplace
    exact not_liesIn_of_moduleForPackage hnone hplace hbase (liesIn_iff_segments.mpr hsegments)
  · intro hnone
    cases hfound : graph.moduleForPackage package with
    | none => rfl
    | some name =>
      obtain ⟨base, hbest⟩ := (hsome name).mp hfound
      exact absurd hbest.covers (hnone name base)

/-- A shop in which two modules declare the empty base, and one of them a base that ends in a dot.
-/
def strayShopSpecs : List ModuleSpec :=
  [⟨"orders", ["", "a.b"], [], []⟩, ⟨"returns", ["", "a.b."], [], []⟩]

/-- A dot at the end is a segment more, and a dot in front makes the empty base cover a package. -/
theorem located_by_segments_in_stray_shop :
    let stray : ModuleGraph := ⟨strayShopSpecs⟩
    ofSpecs strayShopSpecs = .ok stray ∧
      stray.moduleForPackage "a.b..c" = some "returns" ∧
      stray.moduleForPackage ".a" = some "orders" ∧ stray.moduleForPackage "a.bc" = none := by
  intro stray
  have hstray : ofSpecs strayShopSpecs = .ok stray :=
    ofSpecs_of_sorted (by decide) (by decide) (by decide) (by decide)
  have hdeclared {name base : String}
      (h : ∃ spec ∈ strayShopSpecs, spec.name = name ∧ base ∈ spec.packages) :
      (name = "orders" ∧ (base = "" ∨ base = "a.b")) ∨
        name = "returns" ∧ (base = "" ∨ base = "a.b.") := by
    obtain ⟨spec, hspec, rfl, hbase⟩ := h
    simp only [strayShopSpecs, List.mem_cons, List.not_mem_nil, or_false] at hspec
    rcases hspec with rfl | rfl
    · exact Or.inl ⟨rfl, by simpa using hbase⟩
    · exact Or.inr ⟨rfl, by simpa using hbase⟩
  refine ⟨hstray, ?_, ?_, ?_⟩
  · refine ((located_by_segments hstray "a.b..c").1 "returns").mpr ⟨"a.b.", ⟨?_, by decide⟩, ?_, ?_⟩
    · exact ⟨⟨"returns", ["", "a.b."], [], []⟩, by decide, rfl, by decide⟩
    · intro other otherBase hother
      rcases hdeclared hother.declared with ⟨_, rfl | rfl⟩ | ⟨_, rfl | rfl⟩ <;> decide
    · intro other hother
      rcases hdeclared hother.declared with ⟨_, hbase | hbase⟩ | ⟨rfl, _⟩
      · exact absurd hbase (by decide)
      · exact absurd hbase (by decide)
      · exact String.le_refl _
  · refine ((located_by_segments hstray ".a").1 "orders").mpr ⟨"", ⟨?_, by decide⟩, ?_, ?_⟩
    · exact ⟨⟨"orders", ["", "a.b"], [], []⟩, by decide, rfl, by decide⟩
    · intro other otherBase hother
      have hsegments := hother.segments
      rcases hdeclared hother.declared with ⟨_, rfl | rfl⟩ | ⟨_, rfl | rfl⟩
      · decide
      · exact absurd hsegments (by decide)
      · decide
      · exact absurd hsegments (by decide)
    · intro other hother
      rcases hdeclared hother.declared with ⟨rfl, _⟩ | ⟨rfl, _⟩ <;> decide
  · refine (located_by_segments hstray "a.bc").2.mpr ?_
    intro name base hcovers
    have hsegments := hcovers.segments
    rcases hdeclared hcovers.declared with ⟨_, rfl | rfl⟩ | ⟨_, rfl | rfl⟩
    all_goals exact absurd hsegments (by decide)

end ModuleGraph

end TestSelection
