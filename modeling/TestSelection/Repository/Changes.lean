import TestSelection.Detection.Source
import TestSelection.Repository.Library

/-!
The changed files of a repository. What is not committed is what differs between the last commit,
the index and the working files. What is not pushed is that, and what differs between the last
commit and the branch that the current one is compared with; where there is no such branch, nothing
is added. A revision is compared with the last commit alone, so working files do not count there.
-/

namespace TestSelection

/-- Untracked files are listed in all directories, ignored ones are not, and files that moved are
looked for in the index and in the working files. -/
def StatusOptions.uncommitted : StatusOptions where
  includesUntracked := true
  entersUntracked := true
  includesIgnored := false
  joinsStaged := true
  joinsUnstaged := true

namespace RepositoryLibrary

variable (library : RepositoryLibrary)

/-- The paths of the files that are not committed. -/
def uncommitted (handle : library.Handle) : Except LibraryFault (List String) :=
  (library.statuses handle .uncommitted).map FileState.texts

/-- The text of a branch's name, if it is known. -/
def shownBranch (handle : library.Handle) (branch : library.Reference) : String :=
  ((library.branchName handle branch).toOption.bind id).getD "<unnamed>"

/-- The directory of the current branch and that of the branch it is compared with. -/
def trackingTrees (handle : library.Handle) :
    Logged (Except LibraryFault (Option (library.Tree × library.Tree))) :=
  let nothing (message : String) :
      Logged (Except LibraryFault (Option (library.Tree × library.Tree))) :=
    ⟨.ok none, [⟨.repository, .debug, message⟩]⟩
  match library.head handle with
  | .error fault =>
    if fault.code = .unbornBranch || fault.code = .notFound then
      nothing "no commits on current branch, nothing unpushed"
    else Logged.pure (.error fault)
  | .ok head =>
    if !library.isBranch head then
      nothing "HEAD is detached, nothing to compare against upstream"
    else
      match library.upstream handle head with
      | .error fault =>
        if fault.code = .notFound then
          let branch := library.shownBranch handle head
          nothing s!"branch {branch} has no tracking branch, nothing unpushed"
        else Logged.pure (.error fault)
      | .ok upstream =>
        Logged.pure <|
          (library.referenceTree handle head).bind fun tip =>
          (library.referenceTree handle upstream).map fun other => some (tip, other)

/-- The paths of what was found different, after files that moved have been looked for. -/
def collected (found : library.Comparison) : Except LibraryFault (List String) :=
  (library.joined found).map fun found => Delta.texts (library.deltas found)

/-- The paths at which two directories differ. -/
def differing (handle : library.Handle) (old new : library.Tree) :
    Except LibraryFault (List String) :=
  (library.compare handle old new).bind library.collected

/-- The paths of the files that the current branch and the one it is compared with hold
differently. -/
def unpushed (handle : library.Handle) : Logged (Except LibraryFault (List String)) :=
  (library.trackingTrees handle).bind fun
    | .error fault => Logged.pure (.error fault)
    | .ok none => Logged.pure (.ok [])
    | .ok (some (tip, upstream)) => Logged.pure (library.differing handle tip upstream)

/-- The paths of the files that differ between a revision and the last commit. -/
def sinceRevision (handle : library.Handle) (text : String) : Except DetectionError (List String) :=
  match library.revision handle text with
  | .error fault => .error (.unresolvableRevision text fault.message)
  | .ok object =>
    let paths :=
      (library.objectTree handle object).bind fun base =>
      (library.head handle).bind fun head =>
      (library.referenceTree handle head).bind fun tip => library.differing handle base tip
    paths.mapError fun fault => .repository fault.message

/-- The paths of the files that differ from a baseline. -/
def changed (handle : library.Handle) (baseline : Baseline) :
    Logged (Except DetectionError (List String)) :=
  let stated (found : Except LibraryFault (List String)) : Except DetectionError (List String) :=
    found.mapError fun fault => .repository fault.message
  match baseline with
  | .uncommitted => Logged.pure (stated (library.uncommitted handle))
  | .unpushed =>
    match library.uncommitted handle with
    | .error fault => Logged.pure (stated (.error fault))
    | .ok paths =>
      (library.unpushed handle).bind fun more =>
        Logged.pure (stated (more.map (Ascending.union paths)))
  | .revision text => Logged.pure (library.sinceRevision handle text)

/-- Reads the changed files of the repository that the path `root` lies in. -/
def reader (root : String) : BaselineReader := fun baseline =>
  match library.discover root with
  | .error fault => Logged.pure (.error (.repositoryUnavailable root fault.message))
  | .ok handle =>
    (library.changed handle baseline).bind fun
      | .error error => Logged.pure (.error error)
      | .ok paths =>
        ⟨.ok paths,
          [⟨.repository, .debug, s!"{baseline.description}: {paths.length} changed paths"⟩]⟩

end RepositoryLibrary

end TestSelection
