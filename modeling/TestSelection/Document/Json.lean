import TestSelection.Decimal.Shortest
import TestSelection.Document.Tree

/-!
Documents in JSON notation. Reading goes through the text once and keeps what it has understood
when it meets a fault, so the fault takes its place in the tree behind everything before it. A
number without fraction and exponent that fits into 64 bits is an integer; any other one is read
from its leading digits and a rounded power of ten, and a number too large for that is a fault.
-/

namespace TestSelection.JsonText

def isSpace (c : Char) : Bool := c = ' ' || c = '\t' || c = '\n' || c = '\r'

def skipSpace (text : List Char) : List Char := text.dropWhile isSpace

def digitValue? (c : Char) : Option Nat := if c.isDigit then some (c.toNat - 48) else none

def hexValue? (c : Char) : Option Nat :=
  if c.isDigit then some (c.toNat - 48)
  else if 'a' ≤ c && c ≤ 'f' then some (c.toNat - 87)
  else if 'A' ≤ c && c ≤ 'F' then some (c.toNat - 55)
  else none

def hexValue (digits : List Char) : Option Nat :=
  digits.foldlM (fun value c => (hexValue? c).map fun digit => 16 * value + digit) 0

/-- The first four characters as a number in hexadecimal digits. -/
def fourHex (text : List Char) : Option (Nat × List Char) :=
  if text.length < 4 then none else (hexValue (text.take 4)).map fun value => (value, text.drop 4)

/-- The character that a code unit stands for, with the second unit of a pair read from what
follows. A unit of a pair on its own stands for nothing. -/
def unitChar (unit : Nat) (rest : List Char) : Option (Char × List Char) :=
  if 0xDC00 ≤ unit && unit ≤ 0xDFFF then none
  else if 0xD800 ≤ unit && unit ≤ 0xDBFF then
    match rest with
    | '\\' :: 'u' :: more =>
      (fourHex more).bind fun (low, after) =>
        if 0xDC00 ≤ low && low ≤ 0xDFFF then
          some (Char.ofNat (0x10000 + (unit - 0xD800) * 0x400 + (low - 0xDC00)), after)
        else none
    | _ => none
  else some (Char.ofNat unit, rest)

/-- The character written by what follows a backslash. -/
def escaped (text : List Char) : Option (Char × List Char) :=
  match text with
  | '"' :: rest => some ('"', rest)
  | '\\' :: rest => some ('\\', rest)
  | '/' :: rest => some ('/', rest)
  | 'b' :: rest => some ('\x08', rest)
  | 'f' :: rest => some ('\x0c', rest)
  | 'n' :: rest => some ('\n', rest)
  | 'r' :: rest => some ('\r', rest)
  | 't' :: rest => some ('\t', rest)
  | 'u' :: rest => (fourHex rest).bind fun (unit, after) => unitChar unit after
  | _ => none

/-- The rest of a text whose opening quote has been read, and what follows its closing quote. -/
def scanText : Nat → List Char → List Char → Option (List Char × List Char)
  | 0, _, _ => none
  | fuel + 1, read, text =>
    match text with
    | [] => none
    | '"' :: rest => some (read.reverse, rest)
    | '\\' :: rest =>
      match escaped rest with
      | none => none
      | some (c, after) => scanText fuel (c :: read) after
    | c :: rest => if c.toNat < 0x20 then none else scanText fuel (c :: read) rest

def readText (text : List Char) : Option (String × List Char) :=
  (scanText (text.length + 1) [] text).map fun (content, rest) => (String.ofList content, rest)

def maxWord : Nat := Nat.pow 2 64 - 1

/-- The digits in front, gathered into `value` as long as it stays within 64 bits; then how many
were gathered, how many more there are, and what follows them. -/
def gather : Nat → Nat → List Char → Nat × Nat × Nat × List Char
  | value, count, [] => (value, count, 0, [])
  | value, count, c :: rest =>
    match digitValue? c with
    | none => (value, count, 0, c :: rest)
    | some digit =>
      if maxWord < 10 * value + digit then
        let more := (c :: rest).takeWhile Char.isDigit
        (value, count, more.length, (c :: rest).dropWhile Char.isDigit)
      else gather (10 * value + digit) (count + 1) rest

def negate (negative : Bool) : Binary64 → Binary64
  | .finite _ mantissa exponent => .finite negative mantissa exponent
  | .infinite _ => .infinite negative
  | .nan => .nan

/-- A number divided by a power of ten whose exponent is at most 308. -/
def overPower (number : Binary64) (power : Nat) : Binary64 :=
  match number, Binary64.ofDecimal false 1 power with
  | .finite negative mantissa exponent, .finite _ other shift =>
    let (numerator, denominator) := Binary64.ratio other shift
    Binary64.times mantissa exponent (denominator, numerator) negative
  | other, _ => other

def timesPower (number : Binary64) (power : Nat) : Binary64 :=
  match number, Binary64.ofDecimal false 1 power with
  | .finite negative mantissa exponent, .finite _ other shift =>
    Binary64.times mantissa exponent (Binary64.ratio other shift) negative
  | other, _ => other

def isZero : Binary64 → Bool
  | .finite _ mantissa _ => mantissa = 0
  | _ => false

/-- A number times a power of ten, by steps of 308 places downwards; `none` if it is too large. -/
def scaled : Nat → Binary64 → Int → Option Binary64
  | 0, _, _ => none
  | fuel + 1, number, exponent =>
    if exponent.natAbs ≤ 308 then
      if 0 ≤ exponent then
        match timesPower number exponent.natAbs with
        | .infinite _ => none
        | product => some product
      else some (overPower number exponent.natAbs)
    else if isZero number then some number
    else if 0 ≤ exponent then none
    else scaled fuel (overPower number 308) (exponent + 308)

def fraction (negative : Bool) (digits : Nat) (exponent : Int) : Option Found :=
  (scaled 8 (Binary64.ofDecimal false digits 0) exponent).map fun number =>
    .float (negate negative number).compactText

def maxExponent : Nat := Nat.pow 2 31 - 1

/-- The exponent in front and what follows it; `none` in its place if it is beyond 31 bits. -/
def exponentDigits (text : List Char) : Option (Option Nat × List Char) :=
  let digits := text.takeWhile Char.isDigit
  if digits.isEmpty then none
  else
    let value := digits.foldl (fun value c => 10 * value + (c.toNat - 48)) 0
    some (if maxExponent < value then none else some value, text.dropWhile Char.isDigit)

/-- What follows the digits of a number: an exponent, or nothing more of it. -/
def afterDigits (negative : Bool) (digits : Nat) (exponent : Int) (text : List Char) :
    Option (Found × List Char) :=
  match text with
  | 'e' :: rest | 'E' :: rest =>
    let (downwards, rest) :=
      match rest with
      | '-' :: more => (true, more)
      | '+' :: more => (false, more)
      | other => (false, other)
    match exponentDigits rest with
    | none => none
    | some (none, after) =>
      if digits = 0 || downwards then
        some (.float (Binary64.zero negative).compactText, after)
      else none
    | some (some power, after) =>
      let total := if downwards then exponent - power else exponent + power
      (fraction negative digits total).map (·, after)
  | rest => (fraction negative digits exponent).map (·, rest)

/-- What follows the digits before a point. `skipped` of them were not gathered. -/
def afterWhole (negative : Bool) (digits skipped : Nat) (text : List Char) :
    Option (Found × List Char) :=
  match text with
  | '.' :: rest =>
    let (value, count, more, after) := gather digits 0 rest
    if count + more = 0 then none else afterDigits negative value ((skipped : Int) - count) after
  | 'e' :: _ | 'E' :: _ => afterDigits negative digits skipped text
  | rest =>
    if skipped ≠ 0 then (fraction negative digits skipped).map (·, rest)
    else if !negative then some (.integer digits, rest)
    else if digits = 0 || Nat.pow 2 63 < digits then
      some (.float (Binary64.ofDecimal true digits 0).compactText, rest)
    else some (.integer (-digits), rest)

/-- The number in front, of which a sign has been read. A zero is not followed by a digit. -/
def unsigned (negative : Bool) (text : List Char) : Option (Found × List Char) :=
  match text with
  | '0' :: rest =>
    match rest with
    | c :: _ => if c.isDigit then none else afterWhole negative 0 0 rest
    | [] => afterWhole negative 0 0 rest
  | c :: _ =>
    if c.isDigit then
      let (value, _, skipped, after) := gather 0 0 text
      afterWhole negative value skipped after
    else none
  | [] => none

def readNumber (text : List Char) : Option (Found × List Char) :=
  match text with
  | '-' :: rest => unsigned true rest
  | _ => unsigned false text

def scalarOf (found : Found) : Tree := .scalar ⟨none, false, found⟩

/-- A value other than a list or an object, and what follows it. -/
def readScalar (text : List Char) : Option (Tree × List Char) :=
  match text with
  | '"' :: rest => (readText rest).map fun (content, after) => (.ofText content, after)
  | 'n' :: 'u' :: 'l' :: 'l' :: rest => some (scalarOf .null, rest)
  | 't' :: 'r' :: 'u' :: 'e' :: rest => some (scalarOf (.boolean true), rest)
  | 'f' :: 'a' :: 'l' :: 's' :: 'e' :: rest => some (scalarOf (.boolean false), rest)
  | _ => (readNumber text).map fun (found, after) => (scalarOf found, after)

mutual

/-- The value in front, and what follows it unless the value ends in a fault. -/
def value : Nat → List Char → Tree × Option (List Char)
  | 0, _ => (.fault, none)
  | fuel + 1, text =>
    match skipSpace text with
    | '[' :: rest =>
      match skipSpace rest with
      | ']' :: after => (.sequence [] true, some after)
      | _ => items fuel [] rest
    | '\x7b' :: rest =>
      match skipSpace rest with
      | '\x7d' :: after => (.record [] true, some after)
      | _ => entries fuel [] rest
    | other =>
      match readScalar other with
      | none => (.fault, none)
      | some (tree, after) => (tree, some after)

/-- A list of which the items in `read`, last one first, stand before the text. -/
def items : Nat → List Tree → List Char → Tree × Option (List Char)
  | 0, read, _ => (.sequence read.reverse false, none)
  | fuel + 1, read, text =>
    match value fuel text with
    | (item, none) => (.sequence (item :: read).reverse false, none)
    | (item, some rest) =>
      match skipSpace rest with
      | ']' :: after => (.sequence (item :: read).reverse true, some after)
      | ',' :: more => items fuel (item :: read) more
      | _ => (.sequence (item :: read).reverse false, none)

/-- An object of which the entries in `read`, last one first, stand before the text. -/
def entries : Nat → List Entry → List Char → Tree × Option (List Char)
  | 0, read, _ => (.record read.reverse false, none)
  | fuel + 1, read, text =>
    match skipSpace text with
    | '"' :: rest =>
      match readText rest with
      | none => (.record read.reverse false, none)
      | some (key, after) =>
        match skipSpace after with
        | ':' :: more =>
          match value fuel more with
          | (tree, none) => (.record (.mk (.text key) tree :: read).reverse false, none)
          | (tree, some last) =>
            match skipSpace last with
            | '\x7d' :: final => (.record (.mk (.text key) tree :: read).reverse true, some final)
            | ',' :: next => entries fuel (.mk (.text key) tree :: read) next
            | _ => (.record (.mk (.text key) tree :: read).reverse false, none)
        | _ => (.record (.mk (.text key) .fault :: read).reverse false, none)
    | _ => (.record read.reverse false, none)

end

def dialect : Dialect := ⟨true, true⟩

/-- The document that a text holds. Every step of reading takes a character, so the fuel lasts. -/
def read (text : String) : Document :=
  match value (2 * text.length + 2) text.toList with
  | (root, none) => ⟨root, false⟩
  | (root, some rest) => ⟨root, (skipSpace rest).isEmpty⟩

end TestSelection.JsonText
