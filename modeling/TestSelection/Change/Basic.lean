import TestSelection.Ascending

/-!
A change is a changed file read as what it means for the build: a production or test compilation
unit with its dotted identity, or any other file with its path. A change set lists each change
once, production units first, then test units, then other files, each kind by name.
-/

namespace TestSelection

inductive Change
  | compilationUnit (identity : String)
  | testCompilationUnit (identity : String)
  | otherFile (path : String)
  deriving Repr, DecidableEq

namespace Change

/-- The dotted identity of a compilation unit; other files have none. -/
def entity? : Change → Option String
  | compilationUnit identity => some identity
  | testCompilationUnit identity => some identity
  | otherFile _ => none

def label : Change → String
  | compilationUnit _ => "source"
  | testCompilationUnit _ => "test"
  | otherFile _ => "file"

def name : Change → String
  | compilationUnit identity => identity
  | testCompilationUnit identity => identity
  | otherFile path => path

def text (change : Change) : String := change.label ++ " " ++ change.name

def rank : Change → Nat
  | compilationUnit _ => 0
  | testCompilationUnit _ => 1
  | otherFile _ => 2

instance : LT Change where
  lt a b := a.rank < b.rank ∨ a.rank = b.rank ∧ a.name < b.name

instance : DecidableLT Change := fun a b =>
  inferInstanceAs (Decidable (a.rank < b.rank ∨ a.rank = b.rank ∧ a.name < b.name))

theorem lt_iff {a b : Change} : a < b ↔ a.rank < b.rank ∨ a.rank = b.rank ∧ a.name < b.name :=
  Iff.rfl

theorem eq_of_rank_eq_of_name_eq {a b : Change} (hrank : a.rank = b.rank)
    (hname : a.name = b.name) : a = b := by
  cases a <;> cases b <;> simp_all [rank, name]

instance : Ascending.StrictTotal Change where
  irrefl a := by simp [lt_iff]
  trans {a b c} hab hbc := by
    rw [lt_iff] at hab hbc ⊢
    rcases hab with hab | ⟨hab, hab'⟩ <;> rcases hbc with hbc | ⟨hbc, hbc'⟩
    · left; omega
    · left; omega
    · left; omega
    · exact Or.inr ⟨by omega, String.lt_trans hab' hbc'⟩
  eq_of_not_lt {a b} hab hba := by
    simp only [lt_iff, not_or, not_and] at hab hba
    have hrank : a.rank = b.rank := by omega
    exact eq_of_rank_eq_of_name_eq hrank
      (Ascending.StrictTotal.eq_of_not_lt (hab.2 hrank) (hba.2 hrank.symm))

end Change

structure ChangeSet where
  toList : List Change
  ascending : toList.Pairwise (· < ·)

namespace ChangeSet

def ofList (changes : List Change) : ChangeSet :=
  ⟨Ascending.ofList changes, Ascending.pairwise_ofList changes⟩

def empty : ChangeSet := ofList []

instance : Membership Change ChangeSet where
  mem set change := change ∈ set.toList

theorem mem_ofList {change : Change} {changes : List Change} :
    change ∈ ofList changes ↔ change ∈ changes :=
  Ascending.mem_ofList

def size (set : ChangeSet) : Nat := set.toList.length

def isEmpty (set : ChangeSet) : Bool := set.toList.isEmpty

def contains (set : ChangeSet) (change : Change) : Bool := set.toList.contains change

/-- The identities of all changed compilation units, production and test. -/
def entities (set : ChangeSet) : List String := set.toList.filterMap Change.entity?

instance : DecidableEq ChangeSet := fun a b =>
  decidable_of_iff (a.toList = b.toList)
    ⟨fun h => by cases a; cases b; simp_all, fun h => by rw [h]⟩

end ChangeSet

end TestSelection
