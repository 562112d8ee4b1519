import TestSelection.Repository.History
import TestSelection.Repository.Pattern
import TestSelection.Repository.Tracking

/-!
Revisions: texts that name an object. A revision begins with the name of a reference or an object,
or with the start of an object's name, and goes on with steps from there: to a parent, to an
ancestor, to a kind of object, to an entry of a directory, to what a branch is compared with or to
an earlier state of a reference. A revision that is not well formed is refused as a whole.
-/

namespace TestSelection

/-- How far a revision has been read: its name, and what the name has come to stand for. -/
structure RevisionReading where
  name : Bytes := []
  reference : Option Reference := none
  object : Option NamedObject := none

namespace Revision

def caret : UInt8 := 0x5e

def tilde : UInt8 := 0x7e

def sign : UInt8 := 0x40

def openingBrace : UInt8 := 0x7b

def closingBrace : UInt8 := 0x7d

def isDigit (b : UInt8) : Bool := 0x30 ≤ b && b ≤ 0x39

/-- The text between braces at the start, and what stands behind it. -/
def braced (text : Bytes) : Except RepositoryFault (Bytes × Bytes) :=
  match StoredObject.cut closingBrace (text.drop 1) with
  | none => .error .revisionForm
  | some found => .ok found

/-- The largest number that a step may have. -/
def largest : Nat := Nat.pow 2 31 - 1

/-- How many steps the digits at the start say, which is one if there are none. -/
def count (text : Bytes) : Except RepositoryFault (Nat × Bytes) :=
  let digits := text.takeWhile isDigit
  match StoredObject.decimal? digits with
  | none => .ok (1, text)
  | some n => if largest < n then .error .revisionForm else .ok (n, text.dropWhile isDigit)

/-- The number that a text writes, with a sign or without. -/
def number? : Bytes → Option Int
  | 0x2d :: digits => (StoredObject.decimal? digits).map fun n => -(n : Int)
  | 0x2b :: digits => (StoredObject.decimal? digits).map fun n => (n : Int)
  | digits => (StoredObject.decimal? digits).map fun n => (n : Int)

/-- How many generations a row of tildes with numbers says, the first tilde left out. -/
def generations : (fuel : Nat) → Bytes → Except RepositoryFault (Nat × Bytes)
  | 0, text => .ok (1, text)
  | fuel + 1, text =>
    (if text.head? = some tilde then .ok (1, text) else count text).bind fun (n, rest) =>
      if rest.head? = some tilde then
        (generations fuel (rest.drop 1)).map fun (more, rest) => (n + more, rest)
      else .ok (n, rest)

/-- The first `describe` mark in a name such as `v1.0-3-g1a2b3c4`, and the digits behind it. -/
def described? (name : Bytes) : Option Bytes :=
  (Pattern.read (Text.bytes ".+-[0-9]+-g[0-9a-fA-F]+")).bind fun pattern =>
    if pattern.isFoundIn name then HistoryEntry.behindFirst? (Text.bytes "-g") name else none

end Revision

namespace Repository

open Revision

/-- The object whose name begins with the given digits, if they are digits. -/
def objectOfDigits (repository : Repository) (digits : Bytes) :
    Except RepositoryFault (Option NamedObject) :=
  match ObjectId.start? digits with
  | none => .ok none
  | some digits => repository.objectFrom digits

/-- The object that a name alone stands for: a full name of an object comes first, then a reference,
then the start of the name of an object. -/
def objectNamed (repository : Repository) (name : Bytes) : Except RepositoryFault NamedObject :=
  let orElse (found : Except RepositoryFault (Option NamedObject))
      (other : Except RepositoryFault NamedObject) : Except RepositoryFault NamedObject :=
    match found with
    | .error fault => .error fault
    | .ok (some object) => .ok object
    | .ok none => other
  let fromDescription :=
    orElse ((described? name).elim (.ok none) repository.objectOfDigits)
      (.error (.revisionMissing (Text.ofBytes name)))
  let fromStart := orElse (repository.objectOfDigits name) fromDescription
  let fromReference : Except RepositoryFault NamedObject :=
    match repository.named name with
    | .ok reference => repository.object reference.id
    | .error fault => if fault.isMissing then fromStart else .error fault
  if name.length = ObjectId.hexSize then orElse (repository.objectOfDigits name) fromReference
  else fromReference

/-- The object that has been read so far. -/
def objectOf (repository : Repository) (needsName : Bool) (reading : RevisionReading) :
    Except RepositoryFault NamedObject :=
  match reading.object, reading.reference with
  | some object, _ => .ok object
  | none, some reference =>
    (repository.follow followLimit reference).bind fun found => repository.object found.id
  | none, none =>
    if needsName && reading.name.isEmpty then .error .revisionForm
    else repository.objectNamed reading.name

/-- The commit that an object stands for. -/
def commitOf (repository : Repository) (object : NamedObject) :
    Except RepositoryFault (NamedObject × Commit) :=
  match repository.peel .commit object with
  | .error fault =>
    if fault.isMissing || fault.kind = .ambiguous then .error .revisionForm else .error fault
  | .ok found =>
    match found.object with
    | .commit commit => .ok (found, commit)
    | _ => .error .objectKind

/-- The parent of the given number. -/
def parent (repository : Repository) (commit : Commit) (number : Nat) :
    Except RepositoryFault NamedObject :=
  match commit.parents[number]? with
  | none => .error (.noParent number)
  | some id => (repository.commitAt id).map fun commit => ⟨id, .commit commit⟩

/-- The first parent of the first parent and so on, `count` times; it ends at a commit without one.
-/
def ancestor (repository : Repository) : (count : Nat) → NamedObject →
    Except RepositoryFault NamedObject
  | 0, found => .ok found
  | count + 1, found =>
    match found.object with
    | .commit commit => (repository.parent commit 0).bind (ancestor repository count)
    | _ => .error .objectKind

/-- The first object on the way from `found` that is no tag. -/
def peelTag (repository : Repository) : (fuel : Nat) → NamedObject →
    Except RepositoryFault NamedObject
  | 0, _ => .error .depth
  | fuel + 1, found =>
    match found.object with
    | .tag _ => (repository.dereference found).bind (peelTag repository fuel)
    | _ => .ok found

/-- The entry that a path leads to from a directory on. -/
def entryAt (repository : Repository) : (fuel : Nat) → List TreeEntry → Bytes →
    Except RepositoryFault FileEntry
  | 0, _, _ => .error .depth
  | fuel + 1, entries, path =>
    let name := path.takeWhile (· ≠ FileSystem.slash)
    if name.isEmpty then .error .emptyTreePath
    else
      match entries.lookup name, path.dropWhile (· ≠ FileSystem.slash) with
      | none, _ => .error (.noTreeEntry (Text.ofBytes name))
      | some entry, [] => .ok entry
      | some entry, _ :: rest =>
        if entry.mode ≠ .directory then .error (.noSubtree (Text.ofBytes name))
        else if rest.isEmpty then .ok entry
        else
          match repository.treeAt entry.id with
          | .error _ => .error (.objectMissing entry.id)
          | .ok below => entryAt repository fuel below rest

/-- What a path leads to in the directory that an object stands for. -/
def objectAt (repository : Repository) (found : NamedObject) (path : Bytes) :
    Except RepositoryFault NamedObject :=
  match repository.peel .tree found with
  | .error fault => if fault.isMissing then .error .revisionForm else .error fault
  | .ok directory =>
    match directory.object with
    | .tree entries =>
      if path.isEmpty then .ok directory
      else
        (repository.entryAt (path.length + 1) entries path).bind fun entry =>
          repository.object entry.id
    | _ => .error .objectKind

/-- The newest of some commits, the first of them if several are. -/
def newest? (commits : List (ObjectId × Commit)) : Option (ObjectId × Commit) :=
  commits.foldl (fun newest other =>
    if (newest.map fun known => known.2.time).all fun time => time < other.2.time then some other
    else newest) none

/-- Looks through commits, the newest first, and goes on with their parents, `fuel` times at most.
-/
def findCommit (repository : Repository) (isWanted : Commit → Bool) :
    (fuel : Nat) → (seen : List ObjectId) → List (ObjectId × Commit) →
    Except RepositoryFault NamedObject
  | 0, _, _ => .error (.unstated .missing)
  | fuel + 1, seen, waiting =>
    match newest? waiting with
    | none => .error (.unstated .missing)
    | some (id, commit) =>
      if isWanted commit then .ok ⟨id, .commit commit⟩
      else
        let new := (commit.parents.filter fun parent => !seen.contains parent).eraseDups
        (new.mapM fun parent => (repository.commitAt parent).map fun found => (parent, found)).bind
          fun found =>
            findCommit repository isWanted fuel (seen ++ new)
              (waiting.filter (fun other => other.1 ≠ id) ++ found)

/-- The names of all references, packed ones included. -/
def referenceNames (repository : Repository) : List Bytes :=
  let single := repository.files.nodes.filterMap fun (place, node) =>
    let names := place.drop repository.common.length
    match node with
    | .file _ _ =>
      if repository.common.isPrefixOf place && names.head? = some (Text.bytes "refs") then
        some ([FileSystem.slash].intercalate names)
      else none
    | _ => none
  let listed := match repository.sharedAt? (Text.bytes "packed-refs") with
    | none => []
    | some content =>
      (content.data.toList.splitOn StoredObject.newline).filterMap fun line =>
        if line.head? = some 0x23 || line.head? = some caret then none
        else (StoredObject.cut StoredObject.space line).map (·.2)
  (single ++ listed).eraseDups

/-- No fewer than the objects of a repository. -/
def objectBound (repository : Repository) : Nat :=
  repository.packs.foldl (fun bound pack => bound + pack.count) repository.files.nodes.length

/-- The newest commit with a message in which a pattern is found, among those that can be reached
from the given objects. -/
def commitSaying (repository : Repository) (text : Bytes) (starts : List ObjectId) :
    Except RepositoryFault NamedObject :=
  if text.isEmpty then .error .emptyPattern
  else
    match Pattern.read text with
    | none => .error .revisionForm
    | some pattern =>
      let commits := starts.eraseDups.filterMap fun id =>
        match (repository.object id).bind repository.commitOf with
        | .ok (found, commit) => some (found.id, commit)
        | .error _ => none
      repository.findCommit (fun commit => pattern.isFoundIn commit.message)
        repository.objectBound (commits.map (·.1)) commits

/-- What the repository stood on `count` changes of branch ago. -/
def earlierBranch (repository : Repository) (count : Nat) :
    Except RepositoryFault RevisionReading :=
  (repository.referenceAt Reference.head).bind fun _ =>
    match ((repository.history Reference.head).filterMap HistoryEntry.movedFrom?)[count - 1]? with
    | none => .error (.unstated .missing)
    | some name =>
      match repository.named name with
      | .ok found => .ok { reference := some found.direct }
      | .error fault =>
        if !fault.isMissing then .error fault
        else
          (repository.objectOfDigits name).bind fun
            | some object => .ok { object := some object }
            | none => .error (.unstated .missing)

/-- The object that a reference led to `count` changes ago. -/
def earlierObject (repository : Repository) (reference : Reference) (count : Nat) :
    Except RepositoryFault NamedObject :=
  match count with
  | 0 => (repository.follow followLimit reference).bind fun found => repository.object found.id
  | _ =>
    let entries := repository.history reference.name
    match entries[count]? with
    | some entry => repository.object entry.new
    | none => .error (.shortHistory (Text.ofBytes reference.name) entries.length count)

/-- Reads what stands between braces behind an at sign. -/
def readAt (repository : Repository) (reading : RevisionReading) (text : Bytes) :
    Except RepositoryFault RevisionReading :=
  let base : Except RepositoryFault Reference :=
    match reading.reference with
    | some reference => .ok reference
    | none => (repository.named reading.name).map ResolvedReference.direct
  if reading.object.isSome then .error .revisionForm
  else
    match number? text with
    | some n =>
      if n < 0 then
        if reading.name.isEmpty && reading.reference.isNone then repository.earlierBranch n.natAbs
        else .error .revisionForm
      else if text.head? = some 0x2d then .error .revisionForm
      else
        base.bind fun reference =>
          (repository.earlierObject reference n.toNat).map fun object =>
            { reading with object := some object }
    | none =>
      if text = Text.bytes "u" || text = Text.bytes "upstream" then
        base.bind fun reference =>
          if Reference.isBranch reference.name then
            (repository.tracked reference.name).map fun tracked =>
              { reading with reference := some tracked }
          else .error .revisionForm
      else .error .revisionForm

/-- Reads what stands between braces behind a caret. -/
def readKind (repository : Repository) (found : NamedObject) (text : Bytes) :
    Except RepositoryFault NamedObject :=
  match text with
  | [] =>
    match repository.peelTag peelLimit found with
    | .ok peeled => .ok peeled
    | .error fault => .error (.unpeelable found.id none fault.kind)
  | b :: rest =>
    if b = FileSystem.slash then repository.commitSaying rest [found.id]
    else
      match ObjectKind.ofWord? (Text.ofBytes text) with
      | none => .error .revisionForm
      | some kind => repository.peel kind found

/-- Reads the step behind a caret. -/
def readParent (repository : Repository) (found : NamedObject) (text : Bytes) :
    Except RepositoryFault (NamedObject × Bytes) :=
  if text.head? = some openingBrace then
    (braced text).bind fun (inner, rest) =>
      (repository.readKind found inner).map fun object => (object, rest)
  else
    (count text).bind fun (n, rest) =>
      (repository.commitOf found).bind fun (object, commit) =>
        match n with
        | 0 => .ok (object, rest)
        | n + 1 => (repository.parent commit n).map fun object => (object, rest)

/-- Reads a revision from some place on. Every step takes a byte at least. -/
def readRevision (repository : Repository) : (fuel : Nat) → RevisionReading → Bytes →
    Except RepositoryFault NamedObject
  | _, reading, [] => repository.objectOf true reading
  | 0, reading, _ => repository.objectOf true reading
  | fuel + 1, reading, b :: rest =>
    let goOn (object : NamedObject) (rest : Bytes) : Except RepositoryFault NamedObject :=
      readRevision repository fuel { reading with object := some object } rest
    if b = caret then
      (repository.objectOf true reading).bind fun found =>
        (repository.readParent found rest).bind fun (object, rest) => goOn object rest
    else if b = tilde then
      (generations rest.length rest).bind fun (n, rest) =>
        (repository.objectOf true reading).bind fun found =>
          (repository.commitOf found).bind fun (object, _) =>
            (repository.ancestor n object).bind fun object => goOn object rest
    else if b = Wildcard.colon then
      if reading.object.isSome || reading.reference.isSome || !reading.name.isEmpty then
        (repository.objectOf false reading).bind fun found => repository.objectAt found rest
      else if rest.head? = some FileSystem.slash then
        repository.commitSaying (rest.drop 1) (repository.referenceNames.filterMap fun name =>
          (repository.resolved name).toOption.map (·.id))
      else .error .indexRevision
    else if b = sign && rest.head? = some openingBrace then
      (braced rest).bind fun (text, rest) =>
        (repository.readAt reading text).bind fun reading =>
          readRevision repository fuel reading rest
    else if reading.object.isSome || reading.reference.isSome then .error .revisionForm
    else readRevision repository fuel { reading with name := reading.name ++ [b] } rest

/-- The object that a revision names. A single at sign is short for where the repository stands. -/
def revision (repository : Repository) (text : String) : Except RepositoryFault NamedObject :=
  let stated := Text.bytes text
  let meant := if stated = [sign] then Reference.head else stated
  if stated.contains 0 then .error .embeddedNul
  else
    match repository.readRevision meant.length {} meant with
    | .ok found => .ok found
    | .error fault =>
      if fault.kind = .invalid then .error (.revision (Text.ofBytes meant)) else .error fault

end Repository

end TestSelection
