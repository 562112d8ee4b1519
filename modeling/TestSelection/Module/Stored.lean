import TestSelection.FileSystem.Basic
import TestSelection.Module.Format

/-!
Module graphs from files.
-/

namespace TestSelection.ModuleGraph

/-- The graph that the file at `path` declares. -/
def load (files : FileSystem) (path : String) : Except Failure ModuleGraph :=
  match files.readText path with
  | .error fault => .error (.unreadable path fault)
  | .ok text =>
    match parse (.ofPath path) text with
    | .error fault => .error (.config fault (some path))
    | .ok graph => .ok graph

end TestSelection.ModuleGraph
