import Mathlib.Data.List.Sort
import TestSelection.Ascending
import TestSelection.Proofs.Lookups
import TestSelection.Repository.Tree

/-!
Sets and listings in ascending order. A set that is listed in ascending order is given by its
members. A listing names each path once, in ascending order, so it is read by looking paths up; to
put files in order keeps every path, with one of the entries that it had.
-/

namespace TestSelection

namespace Ascending

variable {α : Type} [LT α] [StrictTotal α] {left right : List α}

/-- A set listed in ascending order is given by its members. -/
theorem eq_of_mem_iff (hleft : left.Pairwise (· < ·)) (hright : right.Pairwise (· < ·))
    (h : ∀ x, x ∈ left ↔ x ∈ right) : left = right := by
  have hirrefl : Std.Irrefl (· < · : α → α → Prop) := ⟨StrictTotal.irrefl⟩
  have hantisymm : Std.Antisymm (· < · : α → α → Prop) :=
    ⟨fun _ _ hab hba => absurd (StrictTotal.trans hab hba) (StrictTotal.irrefl _)⟩
  exact hleft.eq_of_mem_iff hright h

theorem ofList_eq_of_mem_iff [DecidableLT α] (h : ∀ x, x ∈ left ↔ x ∈ right) :
    ofList left = ofList right := by
  refine eq_of_mem_iff (pairwise_ofList left) (pairwise_ofList right) fun x => ?_
  rw [mem_ofList, mem_ofList, h]

end Ascending

/-- Every path stands before those that follow it. -/
def Listed {α : Type} (files : List (Bytes × α)) : Prop :=
  files.Pairwise fun first second => first.1 < second.1

variable {α : Type} {files rest : List (Bytes × α)} {path other : Bytes} {value : α}

theorem lookup_eq_none_of_before (h : ∀ entry ∈ files, path < entry.1) :
    files.lookup path = none := by
  refine List.lookup_eq_none_iff.mpr fun entry hentry => bne_iff_ne.mpr ?_
  rintro rfl
  exact List.lt_irrefl _ (h entry hentry)

namespace Listed

theorem tail (h : Listed ((path, value) :: rest)) : Listed rest := (List.pairwise_cons.mp h).2

theorem lookup_tail (h : Listed ((path, value) :: rest)) : rest.lookup path = none :=
  lookup_eq_none_of_before (List.pairwise_cons.mp h).1

/-- Nothing is listed before the first path. -/
theorem lookup_before (h : Listed ((other, value) :: rest)) (hpath : path < other) :
    ((other, value) :: rest).lookup path = none := by
  refine lookup_eq_none_of_before fun entry hentry => ?_
  rcases List.mem_cons.mp hentry with rfl | hentry
  · exact hpath
  · exact List.lt_trans hpath ((List.pairwise_cons.mp h).1 entry hentry)

theorem lookup_eq_some_iff (h : Listed files) :
    files.lookup path = some value ↔ (path, value) ∈ files := by
  induction files with
  | nil => simp
  | cons first rest ih =>
    obtain ⟨other, found⟩ := first
    obtain ⟨hbefore, hrest⟩ := List.pairwise_cons.mp h
    by_cases hpath : path = other
    · subst hpath
      have hnew : (path, value) ∉ rest := fun hmem => List.lt_irrefl path (hbefore _ hmem)
      simp [hnew, eq_comm]
    · rw [lookup_cons_of_ne hpath, ih hrest]
      simp [hpath]

end Listed

open ordered

theorem distinct_sublist (files : List (Bytes × α)) : (distinct files).Sublist files := by
  induction files using distinct.induct with
  | case1 first second rest heq ih =>
    rw [distinct, if_pos heq]
    exact ih.trans ((List.sublist_cons_self second rest).cons_cons first)
  | case2 first second rest hne ih =>
    rw [distinct, if_neg hne]
    exact ih.cons_cons first
  | case3 short hshort =>
    rw [distinct]
    exact hshort

theorem exists_mem_distinct (h : (path, value) ∈ files) :
    ∃ kept, (path, kept) ∈ distinct files := by
  induction files using distinct.induct generalizing value with
  | case1 first second rest heq ih =>
    rw [distinct, if_pos heq]
    rcases List.mem_cons.mp h with rfl | hmem
    · exact ih List.mem_cons_self
    · rcases List.mem_cons.mp hmem with rfl | hmem
      · have hfirst : (path, first.2) = first := Prod.ext heq.symm rfl
        have hmem : (path, first.2) ∈ first :: rest := by
          rw [hfirst]
          exact List.mem_cons_self
        exact ih hmem
      · exact ih (List.mem_cons_of_mem _ hmem)
  | case2 first second rest hne ih =>
    rw [distinct, if_neg hne]
    rcases List.mem_cons.mp h with rfl | hmem
    · exact ⟨value, List.mem_cons_self⟩
    · obtain ⟨kept, hkept⟩ := ih hmem
      exact ⟨kept, List.mem_cons_of_mem _ hkept⟩
  | case3 short hshort =>
    rw [distinct]
    · exact ⟨value, h⟩
    · exact hshort

theorem listed_distinct (h : files.Pairwise fun first second => first.1 ≤ second.1) :
    Listed (distinct files) := by
  induction files using distinct.induct with
  | case1 first second rest heq ih =>
    rw [distinct, if_pos heq]
    exact ih (h.sublist ((List.sublist_cons_self second rest).cons_cons first))
  | case2 first second rest hne ih =>
    obtain ⟨hfirst, hrest⟩ := List.pairwise_cons.mp h
    rw [distinct, if_neg hne]
    refine List.pairwise_cons.mpr ⟨fun entry hentry => ?_, ih hrest⟩
    have hsecond : first.1 < second.1 := Std.lt_of_le_of_ne (hfirst _ List.mem_cons_self) hne
    rcases List.mem_cons.mp ((distinct_sublist _).mem hentry) with rfl | hmem
    · exact hsecond
    · exact Std.lt_of_lt_of_le hsecond ((List.pairwise_cons.mp hrest).1 entry hmem)
  | case3 short hshort =>
    rw [distinct]
    · match short with
      | [] => exact List.Pairwise.nil
      | [only] => exact List.pairwise_singleton _ only
      | first :: second :: rest => exact (hshort first second rest rfl).elim
    · exact hshort

/-- Files that are put in order are a listing. -/
theorem listed_ordered (files : List (Bytes × α)) : Listed (ordered files) := by
  have hsorted := Ascending.pairwise_mergeSort (fun file : Bytes × α => file.1) List.le_trans
    List.le_total files
  exact listed_distinct hsorted

theorem distinct_of_listed (h : Listed files) : distinct files = files := by
  induction files using distinct.induct with
  | case1 first second rest heq ih =>
    have hlt : first.1 < second.1 := (List.pairwise_cons.mp h).1 second List.mem_cons_self
    exact absurd (heq ▸ hlt) (List.lt_irrefl _)
  | case2 first second rest hne ih => rw [distinct, if_neg hne, ih (List.pairwise_cons.mp h).2]
  | case3 short hshort =>
    rw [distinct]
    exact hshort

/-- Nothing is to be done about a listing. -/
theorem ordered_of_listed (h : Listed files) : ordered files = files := by
  have hsorted : files.Pairwise fun a b => decide (a.1 ≤ b.1) :=
    List.Pairwise.imp (fun hlt => decide_eq_true (Std.le_of_lt hlt)) h
  rw [ordered, List.mergeSort_of_pairwise hsorted, distinct_of_listed h]

theorem mem_of_mem_ordered {entry : Bytes × α} (h : entry ∈ ordered files) : entry ∈ files :=
  List.mem_mergeSort.mp ((distinct_sublist _).mem h)

/-- Every path is kept, with one of its entries. -/
theorem exists_mem_ordered (h : (path, value) ∈ files) : ∃ kept, (path, kept) ∈ ordered files :=
  exists_mem_distinct (List.mem_mergeSort.mpr h)

/-- Where every path has one entry at most, the listing has the entries that there are. -/
theorem lookup_ordered_iff (hunique : ∀ {path : Bytes} {first second : α}, (path, first) ∈ files →
    (path, second) ∈ files → first = second) :
    (ordered files).lookup path = some value ↔ (path, value) ∈ files := by
  rw [(listed_ordered files).lookup_eq_some_iff]
  constructor
  · exact mem_of_mem_ordered
  · intro h
    obtain ⟨kept, hkept⟩ := exists_mem_ordered h
    rwa [hunique (mem_of_mem_ordered hkept) h] at hkept

end TestSelection
