import Mathlib.Data.List.Infix
import TestSelection.Proofs.ModuleOwnership

/-!
Which module a package is located in, said without a search. The search goes through the base
packages of all modules in the order of the modules and keeps the first of the longest. Two bases of
one package that are equally long are equal, so what it finds is the least name among the modules
that declare the longest base.
-/

namespace TestSelection

theorem LiesIn.isPrefix {package base : String} (h : LiesIn package base) :
    base.toList <+: package.toList := by
  rcases h with rfl | ⟨rest, rfl⟩
  · exact List.prefix_rfl
  · simp [String.toList_append]

/-- A package lies in no two bases of the same length. -/
theorem LiesIn.eq_of_length_eq {package base other : String} (hbase : LiesIn package base)
    (hother : LiesIn package other) (hlength : base.length = other.length) : base = other := by
  have hle : base.toList.length ≤ other.toList.length := by
    simp only [String.length_toList, hlength, le_refl]
  have hnested : base.toList <+: other.toList :=
    List.prefix_of_prefix_length_le hbase.isPrefix hother.isPrefix hle
  have heq : base.toList = other.toList :=
    hnested.eq_of_length (by rw [String.length_toList, String.length_toList, hlength])
  exact String.toList_inj.mp heq

namespace ModuleGraph

variable {graph : ModuleGraph} {specs : List ModuleSpec} {package : String}

/-- The entry found has only shorter ones before it and none longer behind it. -/
theorem exists_split_of_longest {entries : List (String × String)} {entry : String × String}
    (h : longest entries = some entry) :
    ∃ before after, entries = before ++ entry :: after ∧
      (∀ other ∈ before, other.2.length < entry.2.length) ∧
      ∀ other ∈ after, other.2.length ≤ entry.2.length := by
  induction entries generalizing entry with
  | nil => cases h
  | cons head rest ih =>
    unfold longest at h
    split at h
    · next hnone =>
      cases h
      rw [longest_eq_none hnone]
      exact ⟨[], [], rfl, by simp, by simp⟩
    · next found hfound =>
      obtain ⟨before, after, hrest, hbefore, hafter⟩ := ih hfound
      split at h
      · next hlonger =>
        cases h
        refine ⟨head :: before, after, by rw [hrest, List.cons_append], ?_, hafter⟩
        intro other hother
        rcases List.mem_cons.mp hother with rfl | hother
        · exact hlonger
        · exact hbefore other hother
      · next hnotLonger =>
        cases h
        refine ⟨[], rest, rfl, by simp, ?_⟩
        have hle : found.2.length ≤ head.2.length := Nat.le_of_not_lt hnotLonger
        intro other hother
        rw [hrest] at hother
        rcases List.mem_append.mp hother with hother | hother
        · exact (Nat.le_of_lt (hbefore other hother)).trans hle
        · rcases List.mem_cons.mp hother with rfl | hother
          · exact hle
          · exact (hafter other hother).trans hle

theorem pairwise_names_ordered :
    (ordered specs).Pairwise fun first second => first.name ≤ second.name :=
  Ascending.pairwise_mergeSort ModuleSpec.name String.le_trans String.le_total _

/-- Bases are listed in the order of the modules that declare them. -/
theorem pairwise_bases (h : ofSpecs specs = .ok graph) (package : String) :
    (graph.bases package).Pairwise fun first second => first.1 ≤ second.1 := by
  unfold bases
  rw [List.pairwise_flatMap]
  constructor
  · intro spec _
    rw [List.pairwise_map]
    exact List.pairwise_of_forall fun _ _ => String.le_refl _
  · rw [modules_eq_of_ofSpecs h]
    refine pairwise_names_ordered.imp fun {first second} hle entry hentry other hother => ?_
    obtain ⟨_, _, rfl⟩ := List.mem_map.mp hentry
    obtain ⟨_, _, rfl⟩ := List.mem_map.mp hother
    exact hle

/-- The declarations of `specs` give the module `name` the base `base`. -/
def HasBase (specs : List ModuleSpec) (name base : String) : Prop :=
  ∃ spec ∈ specs, spec.name = name ∧ base ∈ spec.packages

theorem mem_bases_iff_declared (h : ofSpecs specs = .ok graph) {name base : String} :
    (name, base) ∈ graph.bases package ↔ HasBase specs name base ∧ LiesIn package base := by
  rw [mem_bases_iff, modules_eq_of_ofSpecs h]
  constructor
  · rintro ⟨spec, hspec, hname, hbase, hwithin⟩
    obtain ⟨given, hgiven, rfl⟩ := mem_ordered_iff.mp hspec
    exact ⟨⟨given, hgiven, hname, hbase⟩, hwithin⟩
  · rintro ⟨⟨given, hgiven, hname, hbase⟩, hwithin⟩
    exact ⟨_, mem_ordered_iff.mpr ⟨given, hgiven, rfl⟩, hname, hbase, hwithin⟩

/-- `name` is the first module that declares `base`, and `package` lies in `base` and in no longer
base that is declared. -/
structure Locates (specs : List ModuleSpec) (package name base : String) : Prop where
  hasBase : HasBase specs name base
  liesIn : LiesIn package base
  best : ∀ other otherBase, HasBase specs other otherBase → LiesIn package otherBase →
    otherBase.length < base.length ∨ otherBase = base ∧ name ≤ other

/-- A package is located by one base and in one module at most. -/
theorem Locates.unique {name base other otherBase : String} (h : Locates specs package name base)
    (hother : Locates specs package other otherBase) : name = other ∧ base = otherBase := by
  rcases h.best other otherBase hother.hasBase hother.liesIn with hshorter | ⟨rfl, hname⟩
  · rcases hother.best name base h.hasBase h.liesIn with hlonger | ⟨rfl, _⟩ <;> omega
  · rcases hother.best name otherBase h.hasBase h.liesIn with hlonger | ⟨_, hname'⟩
    · omega
    · exact ⟨String.le_antisymm hname hname', rfl⟩

theorem locates_of_longest (h : ofSpecs specs = .ok graph) {name base : String}
    (hlongest : longest (graph.bases package) = some (name, base)) :
    Locates specs package name base := by
  obtain ⟨before, after, hbases, hbefore, hafter⟩ := exists_split_of_longest hlongest
  have hfound : (name, base) ∈ graph.bases package := by simp [hbases]
  obtain ⟨hbase, hwithin⟩ := (mem_bases_iff_declared h).mp hfound
  refine ⟨hbase, hwithin, ?_⟩
  intro other otherBase hother hotherWithin
  have hmem : (other, otherBase) ∈ before ++ (name, base) :: after :=
    hbases ▸ (mem_bases_iff_declared h).mpr ⟨hother, hotherWithin⟩
  rcases List.mem_append.mp hmem with hmem | hmem
  · exact Or.inl (hbefore _ hmem)
  rcases List.mem_cons.mp hmem with heq | hmem
  · obtain ⟨rfl, rfl⟩ := Prod.mk.inj heq
    exact Or.inr ⟨rfl, String.le_refl _⟩
  · have hordered := pairwise_bases h package
    rw [hbases] at hordered
    have hname : name ≤ other :=
      (List.pairwise_cons.mp (List.pairwise_append.mp hordered).2.1).1 _ hmem
    rcases Nat.lt_or_eq_of_le (hafter _ hmem) with hshorter | hequal
    · exact Or.inl hshorter
    · exact Or.inr ⟨hotherWithin.eq_of_length_eq hwithin hequal, hname⟩

theorem moduleForPackage_eq_some_iff_locates (h : ofSpecs specs = .ok graph) {name : String} :
    graph.moduleForPackage package = some name ↔ ∃ base, Locates specs package name base := by
  unfold moduleForPackage
  rw [Option.map_eq_some_iff]
  constructor
  · rintro ⟨⟨_, base⟩, hlongest, rfl⟩
    exact ⟨base, locates_of_longest h hlongest⟩
  · rintro ⟨base, hlocates⟩
    cases hlongest : longest (graph.bases package) with
    | none =>
      have hmem := (mem_bases_iff_declared h).mpr ⟨hlocates.hasBase, hlocates.liesIn⟩
      rw [longest_eq_none hlongest] at hmem
      exact absurd hmem List.not_mem_nil
    | some found =>
      have hsame := hlocates.unique (locates_of_longest h hlongest)
      exact ⟨found, rfl, hsame.1.symm⟩

end ModuleGraph

end TestSelection
