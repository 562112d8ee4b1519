import TestSelection.Proofs.FallibleSteps
import TestSelection.Proofs.WholeTables

/-!
Values that are kept as they are. A value may have any shape, except that a table which starts with
the name reserved for dates has to be a date.
-/

namespace TestSelection

namespace Toml

/-- No table starts with the name reserved for dates, unless it is a date. -/
inductive Keepable : Tree → Prop
  | scalar (value : Scalar) : Keepable (.scalar value)
  | sequence {items : List Tree} (h : ∀ item ∈ items, Keepable item) :
      Keepable (.sequence items true)
  | date {value : Tree} {content : String} (htext : value.text? = some content)
      (hdate : isDateText content.toList = true) : Keepable (Tree.table [(dateKey, value)])
  | table {fields : List (String × Tree)}
      (hfirst : ∀ field, fields.head? = some field → field.1 ≠ dateKey)
      (h : ∀ field ∈ fields, Keepable field.2) : Keepable (Tree.table fields)

variable {tree value : Tree} {items : List Tree} {entries : List Entry}
  {fields : List (String × Tree)}

theorem keepItems_eq_ok_iff : keepItems items = .ok () ↔ ∀ item ∈ items, keep item = .ok () := by
  induction items with
  | nil => simp [keepItems]
  | cons item rest ih => simp [keepItems, check_bind_eq_ok_iff, ih]

theorem keepEntries_eq_ok_iff :
    keepEntries entries = .ok () ↔ ∀ entry ∈ entries, keep entry.value = .ok () := by
  induction entries with
  | nil => simp [keepEntries]
  | cons entry rest ih =>
    cases entry
    simp [keepEntries, check_bind_eq_ok_iff, ih, Entry.value]

theorem keepDate_eq_ok_iff :
    keepDate value entries = .ok () ↔
      entries = [] ∧ ∃ content, value.text? = some content ∧ isDateText content.toList = true := by
  simp only [keepDate, bind_eq_ok_iff, Tree.decodeText_eq_ok_iff, ← exists_and_left]
  refine exists_congr fun content => ?_
  cases isDateText content.toList <;> cases entries <;> simp

theorem keepable_table_iff :
    Keepable (Tree.table fields) ↔
      (∃ value content, fields = [(dateKey, value)] ∧ value.text? = some content ∧
        isDateText content.toList = true) ∨
      (∀ field, fields.head? = some field → field.1 ≠ dateKey) ∧
        ∀ field ∈ fields, Keepable field.2 := by
  constructor
  · intro h
    generalize htree : Tree.table fields = tree at h
    cases h with
    | scalar value => cases htree
    | sequence h => cases htree
    | date htext hdate => exact .inl ⟨_, _, Tree.table_injective htree, htext, hdate⟩
    | table hfirst h =>
      obtain rfl := Tree.table_injective htree
      exact .inr ⟨hfirst, h⟩
  · rintro (⟨value, content, rfl, htext, hdate⟩ | ⟨hfirst, h⟩)
    · exact .date htext hdate
    · exact .table hfirst h

/-- A well-formed value is accepted exactly if it is keepable. -/
theorem keep_eq_ok_iff (h : tree.WellFormed) : keep tree = .ok () ↔ Keepable tree := by
  induction h with
  | scalar value => simp [keep, Keepable.scalar]
  | @sequence items _ ih =>
    rw [keep, keepItems_eq_ok_iff]
    constructor
    · intro h
      exact .sequence fun item hitem => (ih item hitem).mp (h item hitem)
    · intro h item hitem
      cases h with
      | sequence h => exact (ih item hitem).mpr (h item hitem)
  | @table fields _ _ ih =>
    rw [keepable_table_iff]
    cases fields with
    | nil => simp [Tree.table, keep]
    | cons first others =>
      rw [Tree.table, List.map_cons, keep]
      by_cases hname : first.1 = dateKey
      · rw [if_pos (congrArg Key.text hname), keepDate_eq_ok_iff]
        simp [hname, Prod.ext_iff]
      · have hkey : Key.text first.1 ≠ .text dateKey := fun h => hname (Key.text.inj h)
        have hothers : keepEntries (others.map fun field => .mk (.text field.1) field.2) = .ok () ↔
            ∀ field ∈ others, keep field.2 = .ok () := by
          rw [keepEntries_eq_ok_iff, List.forall_mem_map]
          rfl
        have hall : (∀ field ∈ first :: others, keep field.2 = .ok ()) ↔
            ∀ field ∈ first :: others, Keepable field.2 :=
          forall₂_congr ih
        rw [if_neg hkey, check_bind_eq_ok_iff, hothers, ← hall, List.forall_mem_cons]
        simp [hname, Prod.ext_iff]

end Toml

end TestSelection
