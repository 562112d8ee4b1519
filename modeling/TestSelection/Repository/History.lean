import TestSelection.Repository.Reference

/-!
The history of a reference: a line for every change, with the object before, the object after, who
made the change and a message. The last line is the newest.
-/

namespace TestSelection

structure HistoryEntry where
  old : ObjectId
  new : ObjectId
  message : Bytes
  deriving Repr, DecidableEq

namespace HistoryEntry

def tabulator : UInt8 := 0x09

/-- The entry that a line writes. -/
def ofLine? (line : Bytes) : Option HistoryEntry :=
  let digits := ObjectId.hexSize
  let head := line.takeWhile (· ≠ tabulator)
  (ObjectId.ofHex? (line.take digits)).bind fun old =>
  (ObjectId.ofHex? ((line.drop (digits + 1)).take digits)).bind fun new =>
    if (line.drop digits).head? = some StoredObject.space && head.contains 0x3c &&
        head.contains 0x3e then
      some ⟨old, new, (line.dropWhile (· ≠ tabulator)).drop 1⟩
    else none

def movingStart : Bytes := Text.bytes "checkout: moving from "

def movingMiddle : Bytes := Text.bytes " to "

/-- What stands before the last occurrence of `mark`. -/
def beforeLast? (mark : Bytes) : Bytes → Option Bytes
  | [] => none
  | b :: rest =>
    match beforeLast? mark rest with
    | some found => some (b :: found)
    | none => if mark.isPrefixOf (b :: rest) then some [] else none

/-- The message from where `mark` first occurs on, without it. -/
def behindFirst? (mark : Bytes) : Bytes → Option Bytes
  | [] => none
  | b :: rest =>
    if mark.isPrefixOf (b :: rest) then some ((b :: rest).drop mark.length)
    else behindFirst? mark rest

/-- What the repository stood on before the change of an entry, if that was a change of branch. -/
def movedFrom? (entry : HistoryEntry) : Option Bytes :=
  (behindFirst? movingStart entry.message).bind (beforeLast? movingMiddle)

end HistoryEntry

namespace Repository

def historyPath (name : Bytes) : Bytes := Text.bytes "logs/" ++ name

/-- The changes of a reference, the newest first. -/
def history (repository : Repository) (name : Bytes) : List HistoryEntry :=
  match contentFrom? repository.files (repository.placeOf name) (historyPath name) with
  | none => []
  | some content =>
    ((content.data.toList.splitOn StoredObject.newline).filterMap HistoryEntry.ofLine?).reverse

end Repository

end TestSelection
