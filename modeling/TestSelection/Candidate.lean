import TestSelection.Module.Package
import TestSelection.Text.Blank

/-!
Test candidates: a test class given by its dotted identity, or one method of it, written behind
the first `#`. The segments of a class are non-empty and hold no blank character; a method is any
non-empty text.
-/

namespace TestSelection

structure TestCandidate where
  className : String
  method : Option String
  deriving Repr, DecidableEq

namespace TestCandidate

def isClassName (text : List Char) : Bool :=
  (text.splitOn '.').all fun segment => !segment.isEmpty && segment.all fun c => !Text.isBlank c

/-- The candidate that `identity` denotes, if it is a test identity. -/
def parse? (identity : String) : Option TestCandidate :=
  match Text.cutFirst '#' identity.toList with
  | none => if isClassName identity.toList then some ⟨identity, none⟩ else none
  | some (className, method) =>
    if isClassName className && !method.isEmpty then
      some ⟨String.ofList className, some (String.ofList method)⟩
    else none

def package (candidate : TestCandidate) : String := packageOf candidate.className

def text (candidate : TestCandidate) : String :=
  match candidate.method with
  | none => candidate.className
  | some method => candidate.className ++ "#" ++ method

end TestCandidate

end TestSelection
