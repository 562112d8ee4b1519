import TestSelection.Text.Blank

/-!
The choice of a change source: a detector by its key, a revision to compare against, or neither.
A blank text chooses nothing.
-/

namespace TestSelection

structure Selection where
  detector : Option String := none
  referenceCommit : Option String := none
  deriving Repr, DecidableEq

namespace Selection

def detector? (selection : Selection) : Option String := selection.detector.bind Text.stated?

def referenceCommit? (selection : Selection) : Option String :=
  selection.referenceCommit.bind Text.stated?

/-- The selection with each field replaced by the given one, blank or not, where one is given. -/
def override (selection : Selection) (detector referenceCommit : Option String) : Selection :=
  ⟨detector.or selection.detector, referenceCommit.or selection.referenceCommit⟩

end Selection

end TestSelection
