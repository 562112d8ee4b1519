import TestSelection.Repository.Reference
import TestSelection.Repository.Wildcard

/-!
Which reference a local branch is compared with. The settings of the branch name a remote and a
branch there, and the rules of the remote say under which name that branch is kept here. A single
dot for the remote means that the branch is one of this repository.
-/

namespace TestSelection

/-- A rule of a remote: branches there that match `source` are kept here as `target` says. In a rule
with an asterisk on each side, what the first stands for takes the place of the second. -/
structure FetchRule where
  source : Bytes
  target : Bytes
  hasPattern : Bool
  deriving Repr, DecidableEq

namespace FetchRule

def plus : UInt8 := 0x2b

def asterisk : UInt8 := Wildcard.asterisk

/-- Whether one side of a rule is the name of a reference, or of many when it may have an
asterisk. -/
def isSide (patterned : Bool) (name : Bytes) : Bool :=
  let replaced := if patterned then name.map fun b => if b = asterisk then 0x78 else b else name
  let segments := replaced.splitOn FileSystem.slash
  (!patterned || name.count asterisk ≤ 1) && replaced.getLast? ≠ some FileSystem.dot &&
    segments.all (fun segment => !segment.isEmpty && Reference.isSegment segment) &&
    !(1 < segments.length && (segments.head?.map Reference.isCapital).getD false)

/-- What stands before and behind the last colon. -/
def cutLast (text : Bytes) : Bytes × Option Bytes :=
  let reversed := text.reverse
  match reversed.dropWhile (· ≠ Wildcard.colon) with
  | [] => (text, none)
  | _ :: source => (source.reverse, some (reversed.takeWhile (· ≠ Wildcard.colon)).reverse)

/-- A target that does not begin with `refs/` is a branch, or a branch of a remote. -/
def completed (target : Bytes) : Bytes :=
  if target.isEmpty || (Text.bytes "refs/").isPrefixOf target then target
  else if (Text.bytes "remotes/").isPrefixOf target then Text.bytes "refs/" ++ target
  else Reference.branchStart ++ target

def read (text : Bytes) : Except RepositoryFault FetchRule :=
  let sides := if text.head? = some plus then text.drop 1 else text
  let (source, target) := cutLast sides
  let patterned := source.contains asterisk
  let stated := (target.getD []).contains asterisk
  let isGood (side : Bytes) : Bool := side.isEmpty || isSide patterned side
  if patterned ≠ stated || !isGood source || !isGood (target.getD []) then
    .error (.refspec (Text.ofBytes text))
  else .ok ⟨source, completed (target.getD source), patterned⟩

def admits (rule : FetchRule) (name : Bytes) : Bool :=
  if rule.hasPattern then Wildcard.isMatch false rule.source name else rule.source = name

/-- The name under which the reference `name` of the remote is kept here. -/
def apply (rule : FetchRule) (name : Bytes) : Bytes :=
  if rule.hasPattern then
    let before := rule.source.takeWhile (· ≠ asterisk)
    let behind := (rule.source.dropWhile (· ≠ asterisk)).drop 1
    let matched := (name.drop before.length).take (name.length - before.length - behind.length)
    rule.target.takeWhile (· ≠ asterisk) ++ matched ++
      (rule.target.dropWhile (· ≠ asterisk)).drop 1
  else rule.target

end FetchRule

namespace Repository

/-- The rules of the remote of the given name. -/
def fetchRules (repository : Repository) (remote : Bytes) :
    Except RepositoryFault (List FetchRule) :=
  let key (name : String) : Bytes := Text.bytes "remote." ++ remote ++ Text.bytes name
  let known := (repository.options.value? (key ".url")).isSome ||
    (repository.options.value? (key ".pushurl")).isSome
  if !FetchRule.isSide false (Reference.remoteStart ++ remote ++ Text.bytes "/test") then
    .error (.remoteName (Text.ofBytes remote))
  else if !known then .error (.remoteMissing (Text.ofBytes remote))
  else (repository.options.values (key ".fetch")).mapM FetchRule.read

/-- The name of the reference that the branch of the given name is compared with. -/
def trackedName (repository : Repository) (branch : Bytes) : Except RepositoryFault Bytes :=
  let short := branch.drop Reference.branchStart.length
  let setting (name : String) : Except RepositoryFault Bytes :=
    let key := Text.bytes "branch." ++ short ++ Text.bytes name
    match repository.options.value? key with
    | none => .error (.settingMissing (Text.ofBytes key))
    | some value => .ok (value.getD [])
  (setting ".remote").bind fun remote =>
  (setting ".merge").bind fun name =>
    if remote.isEmpty || name.isEmpty then .error (.notTracking (Text.ofBytes branch))
    else if remote = [FileSystem.dot] then .ok name
    else
      (repository.fetchRules remote).bind fun rules =>
        match rules.find? fun rule => rule.admits name with
        | none => .error .noRefspec
        | some rule => .ok (rule.apply name)

/-- The reference that the branch of the given name is compared with. -/
def tracked (repository : Repository) (branch : Bytes) : Except RepositoryFault Reference :=
  (repository.trackedName branch).bind repository.reference

end Repository

end TestSelection
