import TestSelection.Text.Pieces

/-!
Dotted identities and packages. The package of an identity is what stands before its last dot.
A package lies within a base when it equals the base or continues it with a dot, so `a.bc` does
not lie within `a.b`.
-/

namespace TestSelection

/-- The package part of a dotted identity; an identity without a dot has the empty package. -/
def packageOf (identity : String) : String :=
  match Text.cutLast '.' identity.toList with
  | some (package, _) => String.ofList package
  | none => ""

/-- Whether `package` equals `base` or is one of its sub-packages. -/
def isWithin (package base : String) : Bool :=
  match Text.dropStart? base.toList package.toList with
  | none => false
  | some [] => true
  | some (c :: _) => c = '.'

end TestSelection
