/-!
Lists in strictly ascending order, used as finite sets whose members are listed in order.
Inserting a member keeps the order and adds nothing that is already there, so two lists with the
same members give the same set.
-/

namespace TestSelection.Ascending

variable {α : Type} [LT α] [DecidableLT α]

def insert (x : α) : List α → List α
  | [] => [x]
  | y :: rest =>
    if x < y then x :: y :: rest
    else if y < x then y :: insert x rest
    else y :: rest

/-- The members of a list, each once, in ascending order. -/
def ofList (members : List α) : List α := members.foldl (fun set x => insert x set) []

def union (left right : List α) : List α := right.foldl (fun set x => insert x set) left

/-- The order on which sets are built: any two members are comparable, none precedes itself. -/
class StrictTotal (α : Type) [LT α] : Prop where
  irrefl : ∀ a : α, ¬ a < a
  trans : ∀ {a b c : α}, a < b → b < c → a < c
  eq_of_not_lt : ∀ {a b : α}, ¬ a < b → ¬ b < a → a = b

instance : StrictTotal String where
  irrefl := String.lt_irrefl
  trans := String.lt_trans
  eq_of_not_lt := fun hab hba =>
    String.le_antisymm (String.not_lt.mp hba) (String.not_lt.mp hab)

variable [StrictTotal α]

theorem mem_insert {x y : α} {set : List α} : y ∈ insert x set ↔ y = x ∨ y ∈ set := by
  induction set with
  | nil => simp [insert]
  | cons z rest ih =>
    unfold insert
    split
    · simp
    · split
      · simp only [List.mem_cons, ih]
        constructor
        · rintro (h | h | h) <;> simp [h]
        · rintro (h | h | h) <;> simp [h]
      · next hxz hzx =>
        have hx : x = z := StrictTotal.eq_of_not_lt hxz hzx
        simp [hx]

theorem pairwise_insert {x : α} {set : List α} (h : set.Pairwise (· < ·)) :
    (insert x set).Pairwise (· < ·) := by
  induction set with
  | nil => simp [insert]
  | cons y rest ih =>
    obtain ⟨hy, hrest⟩ := List.pairwise_cons.mp h
    unfold insert
    split
    · next hxy =>
      refine List.pairwise_cons.mpr ⟨?_, h⟩
      intro z hz
      rcases List.mem_cons.mp hz with rfl | hz
      · exact hxy
      · exact StrictTotal.trans hxy (hy z hz)
    · split
      · next hyx =>
        refine List.pairwise_cons.mpr ⟨?_, ih hrest⟩
        intro z hz
        rcases mem_insert.mp hz with rfl | hz
        · exact hyx
        · exact hy z hz
      · exact h

theorem mem_union {y : α} {left right : List α} :
    y ∈ union left right ↔ y ∈ left ∨ y ∈ right := by
  induction right generalizing left with
  | nil => simp [union]
  | cons x rest ih =>
    have hstep : union left (x :: rest) = union (insert x left) rest := rfl
    rw [hstep, ih, mem_insert, List.mem_cons]
    constructor
    · rintro ((h | h) | h) <;> simp [h]
    · rintro (h | h | h) <;> simp [h]

theorem pairwise_union {left right : List α} (h : left.Pairwise (· < ·)) :
    (union left right).Pairwise (· < ·) := by
  induction right generalizing left with
  | nil => exact h
  | cons x rest ih => exact ih (pairwise_insert h)

theorem mem_ofList {y : α} {members : List α} : y ∈ ofList members ↔ y ∈ members := by
  have h : y ∈ union [] members ↔ y ∈ [] ∨ y ∈ members := mem_union
  rwa [List.mem_nil_iff, false_or] at h

theorem pairwise_ofList (members : List α) : (ofList members).Pairwise (· < ·) :=
  pairwise_union List.Pairwise.nil

section Sorted

variable {ι κ : Type} [LE κ] [DecidableLE κ]

/-- Members that are put in the order of their keys stand in it. -/
theorem pairwise_mergeSort (key : ι → κ) (htrans : ∀ {a b c : κ}, a ≤ b → b ≤ c → a ≤ c)
    (htotal : ∀ a b : κ, a ≤ b ∨ b ≤ a) (members : List ι) :
    (members.mergeSort fun a b => decide (key a ≤ key b)).Pairwise fun a b => key a ≤ key b := by
  have htransKeys (a b c : ι) (hab : decide (key a ≤ key b)) (hbc : decide (key b ≤ key c)) :
      decide (key a ≤ key c) :=
    decide_eq_true (htrans (of_decide_eq_true hab) (of_decide_eq_true hbc))
  have htotalKeys (a b : ι) : decide (key a ≤ key b) || decide (key b ≤ key a) := by
    simpa using htotal (key a) (key b)
  exact (List.pairwise_mergeSort htransKeys htotalKeys members).imp of_decide_eq_true

end Sorted

section Search

variable {ι : Type} {precedes : ι → ι → Prop} {members : List ι} {wanted : ι → Bool} {found : ι}

/-- A search through members that stand in a strict order finds the wanted one that precedes all
other wanted ones. -/
theorem find?_eq_some_iff_of_pairwise (hasymm : ∀ {a b : ι}, precedes a b → ¬ precedes b a)
    (hordered : members.Pairwise precedes) :
    members.find? wanted = some found ↔ found ∈ members ∧ wanted found ∧
      ∀ other ∈ members, wanted other → other = found ∨ precedes found other := by
  induction members with
  | nil => simp
  | cons first rest ih =>
    obtain ⟨hfirst, hrest⟩ := List.pairwise_cons.mp hordered
    by_cases hwanted : wanted first
    · rw [List.find?_cons_of_pos hwanted]
      constructor
      · intro h
        obtain rfl := Option.some.inj h
        refine ⟨List.mem_cons_self, hwanted, ?_⟩
        intro other hother _
        rcases List.mem_cons.mp hother with rfl | hother
        · exact Or.inl rfl
        · exact Or.inr (hfirst other hother)
      · intro ⟨hmem, _, hbest⟩
        rcases hbest first List.mem_cons_self hwanted with heq | hbefore
        · rw [heq]
        · rcases List.mem_cons.mp hmem with rfl | hmem
          · rfl
          · exact absurd hbefore (hasymm (hfirst found hmem))
    · rw [List.find?_cons_of_neg hwanted, ih hrest]
      constructor
      · intro ⟨hmem, hfound, hbest⟩
        refine ⟨List.mem_cons_of_mem _ hmem, hfound, ?_⟩
        intro other hother hwants
        rcases List.mem_cons.mp hother with rfl | hother
        · exact absurd hwants hwanted
        · exact hbest other hother hwants
      · intro ⟨hmem, hfound, hbest⟩
        rcases List.mem_cons.mp hmem with rfl | hmem
        · exact absurd hfound hwanted
        · exact ⟨hmem, hfound, fun other hother => hbest other (List.mem_cons_of_mem _ hother)⟩

end Search

end TestSelection.Ascending
