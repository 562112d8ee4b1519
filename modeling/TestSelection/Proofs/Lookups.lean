import Mathlib.Data.List.Nodup

/-!
Lists of values under keys. Looking a key up gives the first value under it; where the keys are
distinct, this is the value that the list has under the key.
-/

namespace TestSelection

variable {κ α : Type} [BEq κ] [LawfulBEq κ] {entries : List (κ × α)} {key other : κ} {value : α}

theorem lookup_eq_none_iff_not_mem : entries.lookup key = none ↔ key ∉ entries.map (·.1) := by
  simp only [List.lookup_eq_none_iff, bne_iff_ne, List.mem_map, not_exists, not_and]
  exact ⟨fun h entry hentry heq => h entry hentry heq.symm,
    fun h entry hentry heq => h entry hentry heq.symm⟩

/-- Under distinct keys, what is looked up is what is there. -/
theorem lookup_eq_some_iff_mem (hdistinct : (entries.map (·.1)).Nodup) :
    entries.lookup key = some value ↔ (key, value) ∈ entries := by
  rw [List.lookup_eq_some_iff]
  constructor
  · rintro ⟨before, after, rfl, _⟩
    simp
  · intro hmem
    obtain ⟨before, after, rfl⟩ := List.append_of_mem hmem
    refine ⟨before, after, rfl, fun entry hentry => ?_⟩
    rw [List.map_append, List.nodup_append] at hdistinct
    have hne := hdistinct.2.2 entry.1 (List.mem_map_of_mem hentry) key (by simp)
    exact bne_iff_ne.mpr hne.symm

theorem lookup_cons_of_ne (h : key ≠ other) :
    ((other, value) :: entries).lookup key = entries.lookup key := by
  rw [List.lookup_cons, beq_false_of_ne h]

theorem lookup_concat_self (hfresh : entries.lookup key = none) :
    (entries ++ [(key, value)]).lookup key = some value := by
  rw [List.lookup_append, hfresh, List.lookup_cons_self]
  rfl

theorem lookup_concat_of_ne (h : other ≠ key) :
    (entries ++ [(key, value)]).lookup other = entries.lookup other := by
  rw [List.lookup_append, List.lookup_cons, beq_false_of_ne h]
  simp

end TestSelection
