/-!
Bytes and the text they encode. A text is encoded in UTF-8. Bytes that encode no text can still be
shown: every longest run of bytes that starts a character without completing it is shown as one
replacement character, and so is every byte that starts none.
-/

namespace TestSelection

abbrev Bytes := List UInt8

namespace Text

def bytes (text : String) : Bytes := text.toUTF8.data.toList

/-- The text that bytes encode, if they encode one. -/
def ofUtf8? (encoded : ByteArray) : Option String := String.fromUTF8? encoded

def replacement : Char := Char.ofNat 0xFFFD

/-- The bits that the first byte of a character contributes, the number of bytes that have to
follow, and the range of the next one, which excludes overlong forms and surrogates. -/
def opening? (first : UInt8) : Option (Nat × Nat × UInt8 × UInt8) :=
  if first < 0x80 then some (first.toNat, 0, 0x80, 0xBF)
  else if first < 0xC2 then none
  else if first < 0xE0 then some (first.toNat % 32, 1, 0x80, 0xBF)
  else if first = 0xE0 then some (first.toNat % 16, 2, 0xA0, 0xBF)
  else if first = 0xED then some (first.toNat % 16, 2, 0x80, 0x9F)
  else if first < 0xF0 then some (first.toNat % 16, 2, 0x80, 0xBF)
  else if first = 0xF0 then some (first.toNat % 8, 3, 0x90, 0xBF)
  else if first = 0xF4 then some (first.toNat % 8, 3, 0x80, 0x8F)
  else if first < 0xF4 then some (first.toNat % 8, 3, 0x80, 0xBF)
  else none

/-- The bytes at the front that continue a character of which `missing` bytes are missing, the next
of them between `low` and `high`. -/
def continuation : Nat → UInt8 → UInt8 → Bytes → Bytes
  | 0, _, _, _ => []
  | _, _, _, [] => []
  | missing + 1, low, high, b :: rest =>
    if low ≤ b && b ≤ high then b :: continuation missing 0x80 0xBF rest else []

/-- The first character that bytes show, and the number of bytes after the first one it takes. -/
def shown (first : UInt8) (rest : Bytes) : Char × Nat :=
  match opening? first with
  | none => (replacement, 0)
  | some (start, missing, low, high) =>
    let taken := continuation missing low high rest
    if taken.length = missing then
      (Char.ofNat (taken.foldl (fun code b => code * 64 + b.toNat % 64) start), taken.length)
    else (replacement, taken.length)

def shownChars : Bytes → List Char
  | [] => []
  | first :: rest => (shown first rest).1 :: shownChars (rest.drop (shown first rest).2)
  termination_by encoded => encoded.length
  decreasing_by simp only [List.length_drop, List.length_cons]; omega

/-- The text that shows `encoded`; it is the encoded text itself if there is one. -/
def ofBytes (encoded : Bytes) : String := String.ofList (shownChars encoded)

end Text

end TestSelection
