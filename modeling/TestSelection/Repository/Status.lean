import TestSelection.Repository.Delta

/-!
The states of files. A listing of states has one for each file that differs between the last commit,
the index and the working files: flags that say how, the path of the file, and what differs on
either way. A file that moved has the path of one side alone, so the other one is told by the
differences. What has no flag has not changed, and what is ignored does not count.
-/

namespace TestSelection

/-- How a file differs: in the index from the last commit, in the working files from the index. -/
inductive StateFlag
  | stagedNew | stagedChanged | stagedDeleted | stagedMoved | stagedRetyped
  | new | changed | deleted | moved | retyped
  | ignored | conflicted
  deriving Repr, DecidableEq

/-- The state of a file, with its differences between the last commit and the index, and between the
index and the working files. -/
structure FileState where
  flags : List StateFlag
  path : Bytes
  staged : Option Delta
  unstaged : Option Delta
  deriving Repr, DecidableEq

namespace FileState

def isCurrent (state : FileState) : Bool := state.flags.isEmpty

def isIgnored (state : FileState) : Bool := state.flags.contains .ignored

def deltas (state : FileState) : List Delta := state.staged.toList ++ state.unstaged.toList

/-- The texts that a state tells: its path, where this is a text, and the paths on the sides of its
differences. -/
def told (state : FileState) : List String :=
  if state.isCurrent || state.isIgnored then []
  else
    (Text.ofUtf8? state.path.toByteArray).toList ++
      (state.deltas.flatMap Delta.paths).map Text.ofBytes

/-- All that a listing of states tells, each text once and in ascending order. -/
def texts (states : List FileState) : List String :=
  Ascending.ofList ((states.flatMap told).filter Delta.isStated)

end FileState

/-- Which states a listing has, and whether files that moved are looked for in it. -/
structure StatusOptions where
  includesUntracked : Bool
  /-- Whether a directory with untracked files alone is entered, or listed as it is. -/
  entersUntracked : Bool
  includesIgnored : Bool
  joinsStaged : Bool
  joinsUnstaged : Bool
  deriving Repr, DecidableEq

end TestSelection
