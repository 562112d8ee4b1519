import TestSelection.Repository.Digest
import TestSelection.Text.Utf8

/-!
Names of stored objects: twenty bytes, written as forty hexadecimal digits.
-/

namespace TestSelection

structure ObjectId where
  bytes : Bytes
  deriving Repr, DecidableEq

namespace ObjectId

def size : Nat := 20

def hexSize : Nat := 40

def zero : ObjectId := ⟨List.replicate size 0⟩

def hexDigits (bytes : Bytes) : List Char :=
  bytes.flatMap fun b => [Nat.digitChar (b.toNat / 16), Nat.digitChar (b.toNat % 16)]

def hex (id : ObjectId) : String := String.ofList (hexDigits id.bytes)

/-- The value of a hexadecimal digit given by its byte. -/
def digit? (b : UInt8) : Option Nat :=
  if 0x30 ≤ b && b ≤ 0x39 then some (b.toNat - 0x30)
  else if 0x61 ≤ b && b ≤ 0x66 then some (b.toNat - 0x57)
  else if 0x41 ≤ b && b ≤ 0x46 then some (b.toNat - 0x37)
  else none

def pairs? : Bytes → Option Bytes
  | [] => some []
  | high :: low :: rest =>
    (digit? high).bind fun h => (digit? low).bind fun l =>
      (pairs? rest).map fun bytes => UInt8.ofNat (16 * h + l) :: bytes
  | [_] => none

/-- The name that forty hexadecimal digits write. -/
def ofHex? (digits : Bytes) : Option ObjectId :=
  if digits.length = hexSize then (pairs? digits).map ObjectId.mk else none

/-- Digits that the name of an object may begin with, in lower case. -/
def start? (digits : Bytes) : Option (List Char) :=
  if hexSize < digits.length then none
  else digits.mapM fun b => (digit? b).map Nat.digitChar

end ObjectId

end TestSelection
