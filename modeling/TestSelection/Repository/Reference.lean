import TestSelection.Repository.Basic

/-!
References: names for objects. A reference holds the name of an object or of another reference. It
is a file of its own, or a line in the list of packed references, and the file counts first. A short
name is tried with what may stand before it, and is wrong only if no way to complete it gives a name
that a reference may have.
-/

namespace TestSelection

inductive Target
  | object (id : ObjectId)
  | reference (name : Bytes)
  deriving Repr, DecidableEq

structure Reference where
  name : Bytes
  target : Target
  deriving Repr, DecidableEq

/-- A reference that has been followed to the name of an object. -/
structure ResolvedReference where
  name : Bytes
  id : ObjectId
  deriving Repr, DecidableEq

/-- The reference that holds what another one led to. -/
def ResolvedReference.direct (found : ResolvedReference) : Reference :=
  ⟨found.name, .object found.id⟩

namespace Reference

def head : Bytes := Text.bytes "HEAD"

def branchStart : Bytes := Text.bytes "refs/heads/"

def tagStart : Bytes := Text.bytes "refs/tags/"

def remoteStart : Bytes := Text.bytes "refs/remotes/"

def isBranch (name : Bytes) : Bool := branchStart.isPrefixOf name

/-- The name of a branch, tag or remote branch without what all of their kind begin with. -/
def shorthand (name : Bytes) : Bytes :=
  match [branchStart, tagStart, remoteStart, Text.bytes "refs/"].find? (·.isPrefixOf name) with
  | some start => name.drop start.length
  | none => name

/-- Bytes that no name of a reference holds: blanks, control characters and `~^:\?[*`. -/
def isForbidden (b : UInt8) : Bool :=
  b ≤ 0x20 || [0x7e, 0x5e, 0x3a, 0x5c, 0x3f, 0x5b, 0x2a].contains b

def hasPair (first second : UInt8) : Bytes → Bool
  | a :: b :: rest => a = first && b = second || hasPair first second (b :: rest)
  | _ => false

def isSegment (segment : Bytes) : Bool :=
  segment.head? ≠ some FileSystem.dot && !segment.any isForbidden &&
    !hasPair FileSystem.dot FileSystem.dot segment && !hasPair 0x40 0x7b segment &&
    !(Text.bytes ".lock").isSuffixOf segment

/-- Whether a segment consists of capitals, with low lines between them. -/
def isCapital (segment : Bytes) : Bool :=
  segment.all (fun b => 0x41 ≤ b && b ≤ 0x5a || b = 0x5f) && segment.head? ≠ some 0x5f &&
    segment.getLast? ≠ some 0x5f

/-- Whether the segments of a name make up the name of a reference. -/
def areSegments (segments : List Bytes) : Bool :=
  match segments with
  | [] => false
  | [only] =>
    !only.isEmpty && isSegment only && isCapital only && only.getLast? ≠ some FileSystem.dot
  | first :: _ =>
    segments.all isSegment && !isCapital first &&
      (segments.getLast?.bind fun last => last.getLast?) ≠ some FileSystem.dot

/-- Whether a reference may have this name as it stands. -/
def isName (name : Bytes) : Bool :=
  let segments := name.splitOn FileSystem.slash
  segments.all (fun segment => !segment.isEmpty) && areSegments segments

/-- The name with single slashes between its segments, if a reference may have it. -/
def normalName? (name : Bytes) : Option Bytes :=
  let segments := name.splitOn FileSystem.slash
  let stated := segments.filter fun segment => !segment.isEmpty
  if segments.getLast? ≠ some [] && areSegments stated then
    some ([FileSystem.slash].intercalate stated)
  else none

def linkStart : Bytes := Text.bytes "ref: "

/-- What the file of the reference `name` says. -/
def readTarget (name content : Bytes) : Except RepositoryFault Target :=
  if linkStart.isPrefixOf content then
    let text := (content.reverse.dropWhile Options.isSpace).reverse
    if text.length ≤ linkStart.length then .error .linkCorrupt
    else .ok (.reference (text.drop linkStart.length))
  else
    let behind := (content.drop ObjectId.hexSize).head?
    match ObjectId.ofHex? (content.take ObjectId.hexSize),
        behind.all fun b => Options.isSpace b || b = 0 with
    | some id, true => .ok (.object id)
    | _, _ => .error (.referenceCorrupt (Text.ofBytes name))

/-- The reference of the given name in a list of packed references. -/
def packed? (content name : Bytes) : Except RepositoryFault (Option ObjectId) :=
  let lines := (content.splitOn StoredObject.newline).filter fun line =>
    !line.isEmpty && line.head? ≠ some 0x23 && line.head? ≠ some 0x5e
  let entries := lines.mapM fun line =>
    (StoredObject.cut StoredObject.space line).bind fun (digits, name) =>
      (ObjectId.ofHex? digits).map fun id =>
        (if name.getLast? = some 0x0d then name.dropLast else name, id)
  match entries with
  | none => .error .packedReferencesCorrupt
  | some entries => .ok (entries.lookup name)

end Reference

namespace Repository

/-- The directory that a reference of the given name lies in: those that begin with `refs/` are
shared, except for those of a search for a change. -/
def placeOf (repository : Repository) (name : Bytes) : Location :=
  if (Text.bytes "refs/").isPrefixOf name && !(Text.bytes "refs/bisect/").isPrefixOf name then
    repository.common
  else repository.home

/-- The reference with exactly the given name, not followed. -/
def referenceAt (repository : Repository) (name : Bytes) : Except RepositoryFault Reference :=
  match contentFrom? repository.files (repository.placeOf name) name with
  | some content =>
    (Reference.readTarget name content.data.toList).map fun target => ⟨name, target⟩
  | none =>
    match repository.sharedAt? (Text.bytes "packed-refs") with
    | none => .error (.referenceMissing (Text.ofBytes name))
    | some content =>
      (Reference.packed? content.data.toList name).bind fun
        | some id => .ok ⟨name, .object id⟩
        | none => .error (.referenceMissing (Text.ofBytes name))

/-- The reference that a name leads to after its slashes are put in order, not followed. -/
def reference (repository : Repository) (name : Bytes) : Except RepositoryFault Reference :=
  match Reference.normalName? name with
  | none => .error (.referenceName (Text.ofBytes name))
  | some name => repository.referenceAt name

def followLimit : Nat := 5

/-- Follows a reference to the name of an object, through `limit` other references at most. -/
def follow (repository : Repository) : (limit : Nat) → Reference →
    Except RepositoryFault ResolvedReference
  | limit, ⟨name, target⟩ =>
    match target, limit with
    | .object id, _ => .ok ⟨name, id⟩
    | .reference _, 0 => .error (.referenceDepth followLimit)
    | .reference next, limit + 1 =>
      (repository.referenceAt next).bind fun reference => follow repository limit reference

/-- The reference of the given name, followed to the name of an object. -/
def resolved (repository : Repository) (name : Bytes) :
    Except RepositoryFault ResolvedReference :=
  (repository.reference name).bind (repository.follow followLimit)

/-- What a short name may stand for. -/
def completions (short : Bytes) : List Bytes :=
  if short.isEmpty then [Reference.head]
  else
    [short, Text.bytes "refs/" ++ short, Reference.tagStart ++ short,
      Reference.branchStart ++ short, Reference.remoteStart ++ short,
      Reference.remoteStart ++ short ++ Text.bytes "/HEAD"]

/-- Tries completions one after the other. A name that no reference may have is passed over, and is
the fault if it was the last one. -/
def firstResolved (repository : Repository) (short : Bytes) (last : RepositoryFault) :
    List Bytes → Except RepositoryFault ResolvedReference
  | [] => .error last
  | name :: rest =>
    if Reference.isName name then
      match repository.resolved name with
      | .ok found => .ok found
      | .error fault =>
        if fault.isMissing then
          firstResolved repository short (.noSuchName (Text.ofBytes short)) rest
        else .error fault
    else firstResolved repository short (.noReferenceFor (Text.ofBytes short)) rest

/-- The reference that a short name stands for. -/
def named (repository : Repository) (short : Bytes) : Except RepositoryFault ResolvedReference :=
  firstResolved repository short (.noReferenceFor (Text.ofBytes short)) (completions short)

/-- Where the repository stands. A branch without commits is a reference that is missing. -/
def headReference (repository : Repository) : Except RepositoryFault ResolvedReference :=
  (repository.referenceAt Reference.head).bind fun
    | ⟨name, .object id⟩ => .ok ⟨name, id⟩
    | ⟨_, .reference next⟩ => repository.resolved next

/-- The entries of the directory that a reference leads to. -/
def treeOf (repository : Repository) (reference : Reference) :
    Except RepositoryFault (List TreeEntry) :=
  let shown := Text.ofBytes reference.name
  match repository.follow followLimit reference with
  | .error fault => .error (.referenceUnresolved shown fault.kind)
  | .ok resolved =>
    match repository.object resolved.id with
    | .error fault => .error (.referenceUnpeeled shown fault.kind)
    | .ok found => repository.peelTree found

end Repository

end TestSelection
