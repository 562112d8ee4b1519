import TestSelection.Repository.Compression
import TestSelection.Repository.Object

/-!
Packs of objects. The index of a pack lists the names of its objects in ascending order with the
places where they are stored. An object is stored whole, or as changes to another one that stands
before it in the pack or is known by its name.
-/

namespace TestSelection

structure Pack where
  index : ByteArray
  data : ByteArray

namespace Pack

def byteAt (bytes : ByteArray) (i : Nat) : Nat := (bytes.data.getD i 0).toNat

/-- The number in `size` bytes from index `i`, most significant byte first. -/
def numberAt (bytes : ByteArray) (i size : Nat) : Nat :=
  (List.range size).foldl (fun n k => 256 * n + byteAt bytes (i + k)) 0

/-- Where the names begin: behind eight bytes of header and the counts by first byte. -/
def namesStart : Nat := 8 + 4 * 256

def count (pack : Pack) : Nat := numberAt pack.index (8 + 4 * 255) 4

def isReadable (pack : Pack) : Bool :=
  numberAt pack.index 0 4 = 0xff744f63 && numberAt pack.index 4 4 = 2

def nameAt (pack : Pack) (k : Nat) : ObjectId :=
  let start := namesStart + ObjectId.size * k
  ⟨(pack.index.extract start (start + ObjectId.size)).data.toList⟩

/-- The positions of the names that begin with the byte `first`. -/
def range (pack : Pack) (first : UInt8) : List Nat :=
  let ending := numberAt pack.index (8 + 4 * first.toNat) 4
  let start := if first = 0 then 0 else numberAt pack.index (8 + 4 * (first.toNat - 1)) 4
  (List.range (ending - start)).map (start + ·)

/-- The names that begin with the byte `first`. -/
def names (pack : Pack) (first : UInt8) : List ObjectId := (pack.range first).map pack.nameAt

/-- Where the object with the given name is stored. -/
def offset? (pack : Pack) (id : ObjectId) : Option Nat :=
  if !pack.isReadable then none
  else
    (id.bytes.head?.bind fun first => (pack.range first).find? fun k => pack.nameAt k = id).map
      fun k =>
        let offset := numberAt pack.index (namesStart + 24 * pack.count + 4 * k) 4
        if offset < Nat.pow 2 31 then offset
        else numberAt pack.index (namesStart + 28 * pack.count + 8 * (offset - Nat.pow 2 31)) 8

/-- A number in groups of seven bits, least significant group first, and where it ends. -/
def groupsAt (bytes : ByteArray) : (fuel i shift : Nat) → Nat × Nat
  | 0, i, _ => (0, i)
  | fuel + 1, i, shift =>
    let b := byteAt bytes i
    if b < 128 then (b <<< shift, i + 1)
    else
      let (rest, ending) := groupsAt bytes fuel (i + 1) (shift + 7)
      ((b % 128) <<< shift + rest, ending)

/-- The distance to the object that changes refer to, and where its number ends. -/
def distanceAt (bytes : ByteArray) : (fuel i sofar : Nat) → Nat × Nat
  | 0, i, sofar => (sofar, i)
  | fuel + 1, i, sofar =>
    let b := byteAt bytes i
    if b < 128 then (128 * sofar + b, i + 1)
    else distanceAt bytes fuel (i + 1) (128 * sofar + b % 128 + 1)

/-- A number of which only the bytes are present whose bits are set in `mask`. -/
def sparseAt (bytes : ByteArray) (mask : List Bool) (i : Nat) : Nat × Nat :=
  let (n, _, i) := mask.foldl (fun (n, shift, i) present =>
    if present then (n + byteAt bytes i <<< shift, shift + 8, i + 1) else (n, shift + 8, i))
    (0, 0, i)
  (n, i)

def bits (n count : Nat) : List Bool := (List.range count).map fun k => n >>> k % 2 = 1

/-- Carries out changes: a step copies a part of `base` or adds bytes of its own. -/
def patch (base changes : ByteArray) : (fuel i : Nat) → ByteArray → Option ByteArray
  | 0, _, _ => none
  | fuel + 1, i, output =>
    if changes.size ≤ i then some output
    else
      let step := byteAt changes i
      if 128 ≤ step then
        let (start, i) := sparseAt changes (bits step 4) (i + 1)
        let (size, i) := sparseAt changes (bits (step >>> 4) 3) i
        let size := if size = 0 then 65536 else size
        if base.size < start + size then none
        else patch base changes fuel i (output ++ base.extract start (start + size))
      else if step = 0 || changes.size < i + 1 + step then none
      else patch base changes fuel (i + 1 + step) (output ++ changes.extract (i + 1) (i + 1 + step))

def changed (base changes : ByteArray) : Option ByteArray :=
  let (_, i) := groupsAt changes 10 0 0
  let (_, i) := groupsAt changes 10 i 0
  patch base changes (changes.size + 1) i ByteArray.empty

/-- The object stored at an offset. Objects known by their name are asked for from `named`; chains
of changes have at most `fuel` links. -/
def objectAt (pack : Pack) (named : ObjectId → Option (ObjectKind × ByteArray)) :
    (fuel offset : Nat) → Option (ObjectKind × ByteArray)
  | 0, _ => none
  | fuel + 1, offset =>
    let first := byteAt pack.data offset
    let start := if first < 128 then offset + 1 else (groupsAt pack.data 10 (offset + 1) 4).2
    let whole (kind : ObjectKind) := (Compression.expandAt? pack.data start).map fun c => (kind, c)
    let upon (base : Option (ObjectKind × ByteArray)) (start : Nat) :=
      base.bind fun (kind, content) =>
      (Compression.expandAt? pack.data start).bind fun changes =>
      (changed content changes).map fun content => (kind, content)
    match first / 16 % 8 with
    | 1 => whole .commit
    | 2 => whole .tree
    | 3 => whole .blob
    | 4 => whole .tag
    | 6 =>
      let (distance, start) := distanceAt pack.data 10 start 0
      upon (objectAt pack named fuel (offset - distance)) start
    | 7 =>
      let id : ObjectId := ⟨(pack.data.extract start (start + ObjectId.size)).data.toList⟩
      let base :=
        match pack.offset? id with
        | some offset => objectAt pack named fuel offset
        | none => named id
      upon base (start + ObjectId.size)
    | _ => none

end Pack

end TestSelection
