import TestSelection.Repository.Status
import TestSelection.Repository.Tree

/-!
Comparing files. Two listings are compared by going through both in the order of their paths, so
every path at which they differ gives one change. A file that has been deleted and one that is new
are taken for one that moved if they have the same content. The changes in the index and those in
the working files make up the states of the files.
-/

namespace TestSelection

inductive ChangeKind
  | added
  | deleted
  | moved
  | retyped
  | modified
  deriving Repr, DecidableEq

namespace ChangeKind

/-- The flag for a change from the last commit to the index. -/
def stagedFlag : ChangeKind → StateFlag
  | added => .stagedNew
  | deleted => .stagedDeleted
  | moved => .stagedMoved
  | retyped => .stagedRetyped
  | modified => .stagedChanged

/-- The flag for a change from the index to the working files. -/
def unstagedFlag : ChangeKind → StateFlag
  | added => .new
  | deleted => .deleted
  | moved => .moved
  | retyped => .retyped
  | modified => .changed

end ChangeKind

/-- A file before and after a change, with its paths. -/
structure FileChange where
  old : Option (Bytes × FileEntry)
  new : Option (Bytes × FileEntry)
  deriving Repr, DecidableEq

namespace FileChange

/-- What two listings in ascending order of paths hold at each path. -/
def join {α β : Type} : List (Bytes × α) → List (Bytes × β) →
    List (Bytes × Option α × Option β)
  | [], new => new.map fun (path, value) => (path, none, some value)
  | old, [] => old.map fun (path, value) => (path, some value, none)
  | (oldPath, oldValue) :: old, (newPath, newValue) :: new =>
    if oldPath < newPath then
      (oldPath, some oldValue, none) :: join old ((newPath, newValue) :: new)
    else if newPath < oldPath then
      (newPath, none, some newValue) :: join ((oldPath, oldValue) :: old) new
    else (oldPath, some oldValue, some newValue) :: join old new
  termination_by old new => old.length + new.length

/-- The change at one path. -/
def ofPath (path : Bytes) (before after : Option FileEntry) : FileChange :=
  ⟨before.map fun entry => (path, entry), after.map fun entry => (path, entry)⟩

/-- The changes from one listing of files to another one. -/
def between (old new : Snapshot) : List FileChange :=
  (join old new).filterMap fun (path, before, after) =>
    if before = after then none else some (ofPath path before after)

def isAdded (change : FileChange) : Bool := change.old.isNone

def isDeleted (change : FileChange) : Bool := change.new.isNone

/-- The path in what has changed, or else the path in what it was before. -/
def newPath (change : FileChange) : Bytes := ((change.new <|> change.old).map (·.1)).getD []

def oldPath (change : FileChange) : Bytes := ((change.old <|> change.new).map (·.1)).getD []

/-- The paths of a change. A missing side has the path of the other one. -/
def delta (change : FileChange) : Delta := ⟨some change.oldPath, some change.newPath⟩

/-- Whether a new file is one that has been deleted elsewhere. -/
def isMove (gone come : FileChange) : Bool :=
  match gone.old, come.new with
  | some (_, before), some (_, after) =>
    before.id = after.id && before.mode.kind = after.mode.kind && before.mode.isBlob
  | _, _ => false

/-- New files joined to the deleted ones that they were, and the deleted ones that are left. -/
def paired (gone : List FileChange) : List FileChange → List FileChange
  | [] => gone
  | come :: rest =>
    match gone.find? fun change => isMove change come with
    | some found => ⟨found.old, come.new⟩ :: paired (gone.erase found) rest
    | none => come :: paired gone rest

/-- Changes after files that moved have been looked for. -/
def joined (changes : List FileChange) : List FileChange :=
  let gone := changes.filter isDeleted
  let others := changes.filter fun change => !isDeleted change
  others.filter (fun change => !isAdded change) ++ paired gone (others.filter isAdded)

/-- How a file has changed. -/
def kind (change : FileChange) : ChangeKind :=
  match change.old, change.new with
  | none, _ => .added
  | _, none => .deleted
  | some (before, old), some (after, new) =>
    if before ≠ after then .moved else if old.mode.kind ≠ new.mode.kind then .retyped else .modified

end FileChange

/-- The changes from one stored directory to another one. -/
def StoredTree.changesTo (old new : StoredTree) : Except RepositoryFault (List FileChange) :=
  old.snapshot.bind fun old => new.snapshot.map fun new => FileChange.between old new

/-- A difference with the flag for it, under the path that the file has in the index. -/
abbrev FlaggedDelta := Bytes × StateFlag × Delta

namespace FileState

/-- The state of a file that differs in the index, in the working files, or in both. -/
def ofDeltas (staged unstaged : Option (StateFlag × Delta)) : FileState where
  flags := (staged.toList ++ unstaged.toList).map (·.1)
  path := (((staged <|> unstaged).bind fun flagged => flagged.2.old)).getD []
  staged := staged.map (·.2)
  unstaged := unstaged.map (·.2)

def inOrder (deltas : List FlaggedDelta) : List FlaggedDelta :=
  deltas.mergeSort fun first second => first.1 ≤ second.1

/-- The states of the files with the given differences. -/
def ofListings (staged unstaged : List FlaggedDelta) : List FileState :=
  (FileChange.join (inOrder staged) (inOrder unstaged)).map fun (_, staged, unstaged) =>
    ofDeltas staged unstaged

end FileState

/-- What the last commit, the index and the working files hold. -/
structure FileListings where
  committed : Snapshot
  staged : Snapshot
  /-- The paths in the index that are in conflict. -/
  conflicts : List Bytes
  working : Snapshot
  /-- Directories with a repository of their own that are not tracked, each with a final slash. -/
  repositories : List Bytes
  /-- Whether a working file that is not tracked counts. -/
  isKept : Bytes → Bool
  /-- Whether a working file is taken for what the index has. -/
  isAssumed : Bytes → Bool
  keepsModes : Bool

namespace FileListings

variable (listings : FileListings)

/-- Whether a working file is what the index says. Where modes are not kept, a file may be
executable or not. -/
def isSame (staged found : FileEntry) : Bool :=
  staged.id = found.id &&
    (staged.mode = found.mode ||
      !listings.keepsModes && staged.mode.isPlain && found.mode.isPlain)

/-- The change at a path from the index to the working files. -/
def workingChange (untracked : Bool) (path : Bytes) :
    Option FileEntry → Option FileEntry → Option FileChange
  | some staged, some found =>
    if listings.isAssumed path || listings.isSame staged found then none
    else some (.ofPath path (some staged) (some found))
  | some staged, none => some (.ofPath path (some staged) none)
  | none, some found =>
    if untracked && !listings.conflicts.contains path && listings.isKept path then
      some (.ofPath path none (some found))
    else none
  | none, none => none

def workingChanges (untracked : Bool) : List FileChange :=
  (FileChange.join listings.staged listings.working).filterMap fun (path, staged, found) =>
    listings.workingChange untracked path staged found

/-- A difference that has the same path on both sides. -/
def flagged (flag : StateFlag) (path : Bytes) : FlaggedDelta :=
  (path, flag, ⟨some path, some path⟩)

/-- The differences between the last commit and the index. -/
def stagedDeltas (options : StatusOptions) : List FlaggedDelta :=
  let found := FileChange.between listings.committed listings.staged
  (if options.joinsStaged then FileChange.joined found else found).map
      (fun change => (change.newPath, change.kind.stagedFlag, change.delta)) ++
    listings.conflicts.map (flagged .conflicted)

/-- The differences between the index and the working files. -/
def unstagedDeltas (options : StatusOptions) : List FlaggedDelta :=
  let found := listings.workingChanges options.includesUntracked
  (if options.joinsUnstaged then FileChange.joined found else found).map
      (fun change => (change.oldPath, change.kind.unstagedFlag, change.delta)) ++
    if options.includesUntracked then listings.repositories.map (flagged .new) else []

def states (options : StatusOptions) : List FileState :=
  FileState.ofListings (listings.stagedDeltas options) (listings.unstagedDeltas options)

end FileListings

end TestSelection
