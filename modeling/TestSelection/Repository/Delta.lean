import TestSelection.Ascending
import TestSelection.Change.Layout
import TestSelection.Text.Utf8

/-!
Differences of files. A delta has the path of a file before and the path after. Where there is no
file on one side, this side may have no path, or the path of the other side, or one that stands for
no file. The paths of deltas make up a set of texts, and what stands for no file is left out.
-/

namespace TestSelection

structure Delta where
  old : Option Bytes
  new : Option Bytes
  deriving Repr, DecidableEq

namespace Delta

/-- The paths on the sides of a delta. -/
def paths (delta : Delta) : List Bytes := delta.old.toList ++ delta.new.toList

/-- The path of the missing side of a difference is not that of a file, and neither is nothing. -/
def isStated (path : String) : Bool := path ≠ "" && !isAbsent path

/-- The paths on both sides of all deltas as texts, each once and in ascending order. -/
def texts (deltas : List Delta) : List String :=
  Ascending.ofList (((deltas.flatMap paths).map Text.ofBytes).filter isStated)

end Delta

end TestSelection
