import TestSelection.Document.Json

/-!
Texts and keys in TOML notation. A text stands between double quotes, where a backslash starts an
escape, or between single quotes, where nothing does; three quotes open one that goes over several
lines. A key is a bare word or a one-line text, and dots join keys into a path.
-/

namespace TestSelection.Toml

def isSpace (c : Char) : Bool := c = ' ' || c = '\t'

def skipSpace (text : List Char) : List Char := text.dropWhile isSpace

/-- What follows a line break in front: a line feed, or a carriage return with one. -/
def lineBreak? : List Char → Option (List Char)
  | '\n' :: rest => some rest
  | '\r' :: '\n' :: rest => some rest
  | _ => none

/-- A character that may stand in a comment or in a text: a tab or no control character. -/
def isShown (c : Char) : Bool := c = '\t' || (0x20 ≤ c.toNat && c.toNat ≠ 0x7F)

def isBasic (c : Char) : Bool := isShown c && c ≠ '"' && c ≠ '\\'

def isLiteral (c : Char) : Bool := isShown c && c ≠ '\''

/-- The character of a code point, unless it is a surrogate or beyond the last one. -/
def charOf? (code : Nat) : Option Char :=
  if code < 0xD800 || (0xDFFF < code && code < 0x110000) then some (Char.ofNat code) else none

/-- A character written by exactly `count` hexadecimal digits. -/
def hexEscape (count : Nat) (text : List Char) : Option (Char × List Char) :=
  if text.length < count then none
  else
    ((JsonText.hexValue (text.take count)).bind charOf?).map fun c => (c, text.drop count)

/-- The character written by what follows a backslash. -/
def escaped : List Char → Option (Char × List Char)
  | 'b' :: rest => some ('\x08', rest)
  | 'f' :: rest => some ('\x0c', rest)
  | 'n' :: rest => some ('\n', rest)
  | 'r' :: rest => some ('\r', rest)
  | 't' :: rest => some ('\t', rest)
  | '\\' :: rest => some ('\\', rest)
  | '"' :: rest => some ('"', rest)
  | 'u' :: rest => hexEscape 4 rest
  | 'U' :: rest => hexEscape 8 rest
  | _ => none

/-- The rest of a one-line text between double quotes. -/
def basicText : Nat → List Char → List Char → Option (List Char × List Char)
  | 0, _, _ => none
  | fuel + 1, read, text =>
    match text with
    | '"' :: rest => some (read.reverse, rest)
    | '\\' :: rest => (escaped rest).bind fun (c, after) => basicText fuel (c :: read) after
    | c :: rest => if isBasic c then basicText fuel (c :: read) rest else none
    | [] => none

/-- The rest of a one-line text between single quotes. -/
def literalText (text : List Char) : Option (List Char × List Char) :=
  match text.dropWhile isLiteral with
  | '\'' :: rest => some (text.takeWhile isLiteral, rest)
  | _ => none

/-- Blanks and line breaks in front, where every carriage return belongs to a line break. -/
def skipLines : List Char → List Char
  | '\n' :: rest => skipLines rest
  | '\r' :: '\n' :: rest => skipLines rest
  | ' ' :: rest => skipLines rest
  | '\t' :: rest => skipLines rest
  | rest => rest

/-- The end of a text of several lines: three quotes close it, and up to two before them belong to
it. Fewer than three quotes close nothing. -/
def closing (quote : Char) (text : List Char) : Option (List Char × List Char) :=
  let count := (text.takeWhile (· = quote)).length
  if count < 3 then none
  else
    let kept := min (count - 3) 2
    some (List.replicate kept quote, text.drop (kept + 3))

/-- The rest of a text of several lines between double quotes. A backslash at the end of a line
takes away the line break and the blanks and line breaks after it. -/
def longBasicText : Nat → List Char → List Char → Option (List Char × List Char)
  | 0, _, _ => none
  | fuel + 1, read, text =>
    match text with
    | '"' :: rest =>
      match closing '"' text with
      | some (kept, after) => some (read.reverse ++ kept, after)
      | none => longBasicText fuel ('"' :: read) rest
    | '\\' :: rest =>
      match lineBreak? (skipSpace rest) with
      | some after => longBasicText fuel read (skipLines after)
      | none => (escaped rest).bind fun (c, after) => longBasicText fuel (c :: read) after
    | '\r' :: '\n' :: rest => longBasicText fuel ('\n' :: read) rest
    | '\n' :: rest => longBasicText fuel ('\n' :: read) rest
    | c :: rest => if isBasic c then longBasicText fuel (c :: read) rest else none
    | [] => none

/-- The rest of a text of several lines between single quotes. -/
def longLiteralText : Nat → List Char → List Char → Option (List Char × List Char)
  | 0, _, _ => none
  | fuel + 1, read, text =>
    match text with
    | '\'' :: rest =>
      match closing '\'' text with
      | some (kept, after) => some (read.reverse ++ kept, after)
      | none => longLiteralText fuel ('\'' :: read) rest
    | '\r' :: '\n' :: rest => longLiteralText fuel ('\n' :: read) rest
    | '\n' :: rest => longLiteralText fuel ('\n' :: read) rest
    | c :: rest => if isLiteral c then longLiteralText fuel (c :: read) rest else none
    | [] => none

/-- A line break right after the opening quotes of a text of several lines is no part of it. -/
def dropLineBreak (text : List Char) : List Char := (lineBreak? text).getD text

/-- The text that starts with a quote, and what follows it. -/
def readText (text : List Char) : Option (List Char × List Char) :=
  let fuel := text.length + 1
  match text with
  | '"' :: '"' :: '"' :: rest => longBasicText fuel [] (dropLineBreak rest)
  | '"' :: rest => basicText fuel [] rest
  | '\'' :: '\'' :: '\'' :: rest => longLiteralText fuel [] (dropLineBreak rest)
  | '\'' :: rest => literalText rest
  | _ => none

def isBare (c : Char) : Bool := c.isAlphanum || c = '-' || c = '_'

def readKeyPart (text : List Char) : Option (List Char × List Char) :=
  match text with
  | '"' :: rest => basicText (text.length + 1) [] rest
  | '\'' :: rest => literalText rest
  | _ => if (text.takeWhile isBare).isEmpty then none
    else some (text.takeWhile isBare, text.dropWhile isBare)

/-- How deep keys, arrays and inline tables may go. -/
def depthLimit : Nat := 80

/-- The parts of a key in front, joined by dots, with blanks around them. -/
def readKeyParts : Nat → List Char → Option (List String × List Char)
  | 0, _ => none
  | fuel + 1, text =>
    (readKeyPart (skipSpace text)).bind fun (part, rest) =>
      let name := String.ofList part
      match skipSpace rest with
      | '.' :: more =>
        (readKeyParts fuel more).map fun (others, after) => (name :: others, after)
      | after => some ([name], after)

/-- A path of keys and the key at its end. -/
def readKey (text : List Char) : Option ((List String × String) × List Char) :=
  (readKeyParts (text.length + 1) text).bind fun (parts, rest) =>
    if depthLimit ≤ parts.length then none
    else parts.getLast?.map fun key => ((parts.dropLast, key), rest)

end TestSelection.Toml
