/-!
Values in the notation of JSON objects, and their laid-out text: two blanks more for every level,
one item to a line, nothing between the brackets of an empty list. Inside a text, a quote and a
backslash follow a backslash, and a control character below U+0020 is written by a letter or by
four hexadecimal digits.
-/

namespace TestSelection

inductive Json
  | text (content : String)
  | number (value : Nat)
  | list (items : List Json)
  | object (entries : List (String × Json))

namespace Json

def hexDigit (n : Nat) : Char := (Nat.toDigits 16 n).getLast?.getD '0'

def escapedChar (c : Char) : List Char :=
  if c = '"' then ['\\', '"']
  else if c = '\\' then ['\\', '\\']
  else if c.toNat = 0x08 then ['\\', 'b']
  else if c.toNat = 0x0c then ['\\', 'f']
  else if c = '\n' then ['\\', 'n']
  else if c = '\r' then ['\\', 'r']
  else if c = '\t' then ['\\', 't']
  else if c.toNat < 0x20 then
    ['\\', 'u', '0', '0', hexDigit (c.toNat / 16), hexDigit (c.toNat % 16)]
  else [c]

def writtenText (content : String) : List Char :=
  '"' :: content.toList.flatMap escapedChar ++ ['"']

/-- A line break followed by the indentation of `level`. -/
def lineBreak (level : Nat) : List Char := '\n' :: List.replicate (2 * level) ' '

mutual

/-- The text of a value whose first line is already indented to `level`. -/
def laidOut (level : Nat) : Json → List Char
  | text content => writtenText content
  | number value => Nat.toDigits 10 value
  | list [] => ['[', ']']
  | list (item :: rest) =>
    '[' :: lineBreak (level + 1) ++ laidOut (level + 1) item ++ laidOutItems level rest
  | object [] => ['\x7b', '\x7d']
  | object ((key, value) :: rest) =>
    '\x7b' :: lineBreak (level + 1) ++ writtenText key ++ [':', ' '] ++
      laidOut (level + 1) value ++ laidOutEntries level rest

/-- The items after the first one of a list, and its end. -/
def laidOutItems (level : Nat) : List Json → List Char
  | [] => lineBreak level ++ [']']
  | item :: rest =>
    ',' :: lineBreak (level + 1) ++ laidOut (level + 1) item ++ laidOutItems level rest

/-- The entries after the first one of an object, and its end. -/
def laidOutEntries (level : Nat) : List (String × Json) → List Char
  | [] => lineBreak level ++ ['\x7d']
  | (key, value) :: rest =>
    ',' :: lineBreak (level + 1) ++ writtenText key ++ [':', ' '] ++
      laidOut (level + 1) value ++ laidOutEntries level rest

end

/-- The laid-out text of a value, ended by a line feed. -/
def document (value : Json) : String := String.ofList (value.laidOut 0 ++ ['\n'])

end Json

end TestSelection
