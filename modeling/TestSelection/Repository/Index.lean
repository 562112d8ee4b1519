import TestSelection.Repository.Basic
import TestSelection.Repository.Tree

/-!
The index: the files that the next commit would hold, each with its mode and content, in ascending
order of their paths. A path in conflict has up to three entries instead, one for each side and one
for what they come from. What follows the entries can be passed over if it is marked by a capital.
-/

namespace TestSelection

/-- An entry of the index. Stage zero is what a commit would hold, the others belong to a conflict.
-/
structure IndexEntry where
  path : Bytes
  stage : Nat
  entry : FileEntry
  /-- Whether the working file is taken for this entry without being looked at. -/
  isAssumed : Bool
  deriving Repr, DecidableEq

abbrev Index := List IndexEntry

namespace Index

/-- The files that a commit would hold. -/
def staged (index : Index) : Snapshot :=
  index.filterMap fun entry => if entry.stage = 0 then some (entry.path, entry.entry) else none

/-- The paths that are in conflict. -/
def conflicts (index : Index) : List Bytes :=
  index.filterMap fun entry => if entry.stage = 0 then none else some entry.path

/-- The paths at which working files are not looked at. -/
def assumed (index : Index) : List Bytes :=
  index.filterMap fun entry => if entry.isAssumed then some entry.path else none

def isBefore (a b : IndexEntry) : Bool := a.path < b.path || a.path = b.path && a.stage ≤ b.stage

/-- The index with the given entries, in their order. -/
def ofEntries (entries : List IndexEntry) : Index := entries.mergeSort isBefore

/-- Whether a path lies below another one. -/
def isBelow (path directory : Bytes) : Bool := (directory ++ [FileSystem.slash]).isPrefixOf path

/-- The length of an entry of a file with that many bytes in its path: a multiple of eight that
leaves room for one zero at least. -/
def recordSize (base path : Nat) : Nat := (base + path + 8) / 8 * 8

def mark : Bytes := Text.bytes "DIRC"

def numberOf (bytes : Bytes) : Nat := bytes.foldl (fun n b => 256 * n + b.toNat) 0

/-- A number in groups of seven bits, where each group but the last counts one more. -/
def groupedNumber : (sofar : Nat) → Bytes → Nat × Bytes
  | sofar, [] => (sofar, [])
  | sofar, b :: rest =>
    if b < 128 then (128 * sofar + b.toNat, rest)
    else groupedNumber (128 * sofar + b.toNat % 128 + 1) rest

/-- The marks of an entry: bits of the first number, and of a second one if the first one says that
there is one. -/
def isMarked (flags more : Nat) : Bool := flags / 0x8000 % 2 = 1 || more / 0x4000 % 2 = 1

/-- Reads entries and gives what follows them; in version 4 a path shares its start with the path
before it. -/
def readEntries (version : Nat) :
    (count : Nat) → (previous : Bytes) → Bytes → Option (Index × Bytes)
  | 0, _, rest => some ([], rest)
  | count + 1, previous, bytes =>
    let mode := numberOf ((bytes.drop 24).take 4)
    let id : ObjectId := ⟨(bytes.drop 40).take 20⟩
    let flags := numberOf ((bytes.drop 60).take 2)
    let isLong := flags / 0x4000 % 2 = 1
    let more := if isLong then numberOf ((bytes.drop 62).take 2) else 0
    let base := if isLong then 64 else 62
    if bytes.length < base + 1 then none
    else
      let text := bytes.drop base
      let found : Option (Bytes × Bytes) :=
        if version = 4 then
          let (dropped, text) := groupedNumber 0 text
          (StoredObject.cut 0 text).map fun (ending, rest) =>
            (previous.take (previous.length - dropped) ++ ending, rest)
        else
          let path := text.takeWhile (· ≠ 0)
          if bytes.length < recordSize base path.length then none
          else some (path, bytes.drop (recordSize base path.length))
      found.bind fun (path, rest) =>
        (readEntries version count path rest).map fun (entries, last) =>
          (⟨path, flags / 0x1000 % 4, ⟨.ofNumber mode, id⟩, isMarked flags more⟩ :: entries, last)

/-- Passes over what follows the entries: parts with a mark of four bytes and a size, of which only
those may be left out that are marked by a capital. -/
def checkParts : (fuel : Nat) → Bytes → Except RepositoryFault Unit
  | _, [] | 0, _ => .ok ()
  | fuel + 1, bytes =>
    let size := 8 + numberOf ((bytes.drop 4).take 4)
    let isOptional := bytes.head?.any fun b => 0x41 ≤ b && b ≤ 0x5a
    if bytes.length < size then .error (.index "extension is truncated")
    else if !isOptional then .error (.indexPart (Text.ofBytes (bytes.take 4)))
    else checkParts fuel (bytes.drop size)

/-- The index that a file holds. -/
def read (content : ByteArray) : Except RepositoryFault Index :=
  let bytes := content.data.toList
  let body := bytes.length - ObjectId.size
  let version := numberOf ((bytes.drop 4).take 4)
  let count := numberOf ((bytes.drop 8).take 4)
  if bytes.length < 12 + ObjectId.size then .error (.index "insufficient buffer space")
  else if bytes.take 4 ≠ mark then .error (.index "incorrect header signature")
  else if version < 2 || 4 < version then .error (.index "incorrect header version")
  else
    match readEntries version count [] ((bytes.take body).drop 12) with
    | none => .error (.index "invalid entry")
    | some (entries, parts) =>
      (checkParts parts.length parts).bind fun _ =>
        let sum := bytes.drop body
        if sum = ObjectId.zero.bytes || sum = Digest.digest (content.extract 0 body) then
          .ok (ofEntries entries)
        else .error (.index "calculated checksum does not match expected")

end Index

namespace Repository

/-- The index of a repository, which is empty as long as there is no file for it. -/
def index (repository : Repository) : Except RepositoryFault Index :=
  match repository.contentAt? (Text.bytes "index") with
  | none => .ok []
  | some content => Index.read content

end Repository

end TestSelection
