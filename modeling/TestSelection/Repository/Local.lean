import TestSelection.Repository.Changes
import TestSelection.Repository.Comparison
import TestSelection.Repository.Discovery
import TestSelection.Repository.Revision
import TestSelection.Repository.Worktree

/-!
The library that reads the repositories of a file system. Working files count as they would be
stored, and of files that moved only those are found whose content has not changed.
-/

namespace TestSelection

/-- A fault as a library tells it. -/
def RepositoryFault.stated (fault : RepositoryFault) : LibraryFault :=
  ⟨if fault.isMissing then .notFound else .other, fault.message⟩

namespace Repository

/-- The directory with the given entries, and how the directories in it are read. -/
def tree (repository : Repository) (entries : List TreeEntry) : StoredTree :=
  ⟨repository.treeAt, entries⟩

/-- The files of the last commit; there are none as long as nothing is committed. -/
def headSnapshot (repository : Repository) : Except RepositoryFault Snapshot :=
  match repository.headReference.bind fun head => repository.treeOf head.direct with
  | .ok entries => (repository.tree entries).snapshot
  | .error fault => if fault.isMissing then .ok [] else .error fault

/-- Whether it counts which files are executable. -/
def keepsModes (repository : Repository) : Bool :=
  repository.files.marksExecutables &&
    match repository.options.truth? "core.filemode" with
    | .ok value => value.getD true
    | .error _ => false

/-- The working files as the index would have them. A directory that the index has as a repository
of its own is one. -/
def workingFiles (tree : Worktree) (staged : Snapshot) : Snapshot :=
  (FileChange.join staged tree.files).filterMap fun (path, staged, found) =>
    match found.bind (Worktree.entryOf (tree.stored path)), found, staged with
    | some entry, _, _ => some (path, entry)
    | none, some _, some entry => if entry.mode = .submodule then some (path, entry) else none
    | none, _, _ => none

/-- What the last commit, the index and the working files in the directory `root` hold. -/
def listings (repository : Repository) (root : Location) (committed : Snapshot) (index : Index) :
    FileListings :=
  let tree := repository.worktreeAt root index
  let tracked := index.map fun entry => entry.path
  { committed := committed
    staged := index.staged
    conflicts := index.conflicts
    working := workingFiles tree index.staged
    repositories := tree.newRepositories tracked
    isKept := tree.isNew tracked
    isAssumed := index.assumed.contains
    keepsModes := repository.keepsModes }

/-- The states of the files. A listing leaves nothing untracked out or has nothing untracked, and it
never has what is ignored. -/
def statuses (repository : Repository) (options : StatusOptions) :
    Except RepositoryFault (List FileState) :=
  match repository.worktree with
  | none => .error .bareStatus
  | some root =>
    if options.includesIgnored || options.includesUntracked && !options.entersUntracked then
      .error (.unstated .other)
    else
      repository.index.bind fun index =>
      repository.headSnapshot.map fun committed =>
        (repository.listings root committed index).states options

/-- Where the repository stands. A branch that is not there has no commits. -/
def currentHead (repository : Repository) : Except LibraryFault Reference :=
  match repository.headReference, repository.referenceAt Reference.head with
  | .ok head, _ => .ok head.direct
  | .error fault, .ok _ =>
    .error (if fault.isMissing then ⟨.unbornBranch, fault.message⟩ else fault.stated)
  | .error fault, .error _ => .error fault.stated

/-- The library for the repositories of a file system. -/
def library (files : FileSystem) : RepositoryLibrary where
  Handle := Repository
  Reference := TestSelection.Reference
  Object := NamedObject
  Tree := StoredTree
  Comparison := List FileChange
  discover root := (openAt files root).mapError (·.stated)
  statuses repository options := (repository.statuses options).mapError (·.stated)
  head repository := repository.currentHead
  isBranch reference := Reference.isBranch reference.name
  branchName _ reference := .ok (Text.ofUtf8? (Reference.shorthand reference.name).toByteArray)
  upstream repository branch := (repository.tracked branch.name).mapError (·.stated)
  referenceTree repository reference :=
    ((repository.treeOf reference).map repository.tree).mapError (·.stated)
  revision repository text := (repository.revision text).mapError (·.stated)
  objectTree repository object :=
    ((repository.peelTree object).map repository.tree).mapError (·.stated)
  compare _ old new := (old.changesTo new).mapError (·.stated)
  joined found := .ok (FileChange.joined found)
  deltas found := found.map FileChange.delta

end Repository

/-- Reads the changed files of the repository that the path `root` lies in. -/
def Baseline.read (files : FileSystem) (root : String) : BaselineReader :=
  (Repository.library files).reader root

end TestSelection
