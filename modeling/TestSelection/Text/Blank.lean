/-!
Blank characters and trimming. A character is blank when Unicode gives it the property
White_Space; the zero-width space and the byte-order mark are not blank. Trimming removes the
blank characters at both ends and keeps every other one.
-/

namespace TestSelection.Text

/-- The inclusive code-point ranges of the property White_Space. -/
def blankRanges : List (Nat × Nat) :=
  [(0x09, 0x0D), (0x20, 0x20), (0x85, 0x85), (0xA0, 0xA0), (0x1680, 0x1680), (0x2000, 0x200A),
   (0x2028, 0x2029), (0x202F, 0x202F), (0x205F, 0x205F), (0x3000, 0x3000)]

def isBlank (c : Char) : Bool :=
  blankRanges.any fun range => range.1 ≤ c.toNat && c.toNat ≤ range.2

def trimStart (text : List Char) : List Char := text.dropWhile isBlank

def trimEnd (text : List Char) : List Char := (text.reverse.dropWhile isBlank).reverse

def trimChars (text : List Char) : List Char := trimEnd (trimStart text)

def trim (text : String) : String := String.ofList (trimChars text.toList)

/-- The trimmed text when something is left of it. -/
def stated? (text : String) : Option String :=
  if trim text = "" then none else some (trim text)

end TestSelection.Text
