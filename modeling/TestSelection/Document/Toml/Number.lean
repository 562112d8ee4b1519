import TestSelection.Document.Toml.Text

/-!
Numbers and dates in TOML notation. An underscore may stand between two digits of a number. An
integer has 64 bits; a number with a fraction or an exponent is the nearest binary one and not too
large. A date has a day that its month has, a time at most the leap second 60, and an offset at
most one day.
-/

namespace TestSelection.Toml

/-- The characters of a number in front: digits, and single underscores between digits. An
underscore without a digit behind it spoils the number. -/
def digitRun (isDigit : Char → Bool) : Bool → List Char → Option (List Char × List Char)
  | _, [] => some ([], [])
  | afterDigit, c :: rest =>
    if isDigit c then (digitRun isDigit true rest).map fun (digits, after) => (c :: digits, after)
    else if c = '_' && afterDigit then
      match rest with
      | d :: _ => if isDigit d then digitRun isDigit false rest else none
      | [] => none
    else some ([], c :: rest)

/-- One digit or more, with underscores between them. -/
def someDigits (isDigit : Char → Bool) (text : List Char) : Option (List Char × List Char) :=
  match text with
  | c :: _ => if isDigit c then digitRun isDigit false text else none
  | [] => none

def valueOf (base : Nat) (digits : List Char) : Nat :=
  digits.foldl (fun value c => base * value + (JsonText.hexValue? c).getD 0) 0

structure SignedDigits where
  negative : Bool
  digits : List Char

def sign : List Char → Bool × List Char
  | '-' :: rest => (true, rest)
  | '+' :: rest => (false, rest)
  | rest => (false, rest)

/-- A whole number in front. A zero stands alone. -/
def wholeNumber (text : List Char) : Option (SignedDigits × List Char) :=
  let (negative, rest) := sign text
  match rest with
  | '0' :: after => some (⟨negative, ['0']⟩, after)
  | _ => (someDigits Char.isDigit rest).map fun (digits, after) => (⟨negative, digits⟩, after)

/-- The value of an attempt to read one form of value: the text has another form, it has this
form but is faulty, or it has been read. -/
inductive Attempt (α : Type)
  | other
  | faulty
  | read (value : α) (rest : List Char)

def Attempt.ofOption {α : Type} : Option (α × List Char) → Attempt α
  | none => .faulty
  | some (value, rest) => .read value rest

/-- The exponent in front, behind its letter. -/
def exponentPart (text : List Char) : Option (Int × List Char) :=
  let (negative, rest) := sign text
  (someDigits Char.isDigit rest).map fun (digits, after) =>
    let value : Int := valueOf 10 digits
    (if negative then -value else value, after)

def floatOf (whole : SignedDigits) (fraction : List Char) (exponent : Int) : Option Binary64 :=
  let digits := valueOf 10 (whole.digits ++ fraction)
  match Binary64.ofDecimal whole.negative digits (exponent - fraction.length) with
  | .infinite false => none
  | number => some number

def specialFloat (text : List Char) : Attempt Binary64 :=
  let (negative, rest) := sign text
  match rest with
  | 'i' :: 'n' :: 'f' :: after => .read (.infinite negative) after
  | 'n' :: 'a' :: 'n' :: after => .read .nan after
  | _ => .other

/-- A number with a fraction or an exponent in front. -/
def readFloat (text : List Char) : Attempt Binary64 :=
  match wholeNumber text with
  | none => specialFloat text
  | some (whole, rest) =>
    let finish (fraction : List Char) (exponent : Int) (after : List Char) :=
      Attempt.ofOption ((floatOf whole fraction exponent).map (·, after))
    match rest with
    | 'e' :: more | 'E' :: more =>
      match exponentPart more with
      | none => .faulty
      | some (exponent, after) => finish [] exponent after
    | '.' :: more =>
      match someDigits Char.isDigit more with
      | none => .faulty
      | some (fraction, 'e' :: last) | some (fraction, 'E' :: last) =>
        match exponentPart last with
        | none => .faulty
        | some (exponent, after) => finish fraction exponent after
      | some (fraction, after) => finish fraction 0 after
    | _ => .other

def smallest : Int := -(Int.pow 2 63)

def largest : Int := Int.pow 2 63 - 1

def inRange (value : Int) : Option Int :=
  if smallest ≤ value && value ≤ largest then some value else none

def basedInteger (base : Nat) (isDigit : Char → Bool) (text : List Char) :
    Option (Int × List Char) :=
  (someDigits isDigit text).bind fun (digits, after) =>
    (inRange (valueOf base digits)).map (·, after)

def readInteger (text : List Char) : Option (Int × List Char) :=
  match text with
  | '0' :: 'x' :: rest => basedInteger 16 (fun c => (JsonText.hexValue? c).isSome) rest
  | '0' :: 'o' :: rest => basedInteger 8 (fun c => '0' ≤ c && c ≤ '7') rest
  | '0' :: 'b' :: rest => basedInteger 2 (fun c => c = '0' || c = '1') rest
  | _ =>
    (wholeNumber text).bind fun (whole, after) =>
      let value : Int := valueOf 10 whole.digits
      (inRange (if whole.negative then -value else value)).map (·, after)

/-- A number of exactly two digits in front, within bounds. -/
def twoDigits (low high : Nat) (text : List Char) : Option (Nat × List Char) :=
  match text with
  | a :: b :: rest =>
    let value := valueOf 10 [a, b]
    if a.isDigit && b.isDigit && low ≤ value && value ≤ high then some (value, rest) else none
  | _ => none

def expect (c : Char) : List Char → Option (List Char)
  | d :: rest => if d = c then some rest else none
  | [] => none

def daysIn (year month : Nat) : Nat :=
  if month = 2 then
    if year % 4 = 0 && (year % 100 ≠ 0 || year % 400 = 0) then 29 else 28
  else if month = 4 || month = 6 || month = 9 || month = 11 then 30
  else 31

/-- What follows the fraction of a second, if there is one. -/
def afterFraction (text : List Char) : List Char :=
  match text with
  | '.' :: c :: more => if c.isDigit then more.dropWhile Char.isDigit else text
  | _ => text

/-- What follows minute and second of a time whose hour and colon have been read. -/
def timeTail (text : List Char) : Option (List Char) :=
  (twoDigits 0 59 text).bind fun (_, rest) =>
  (expect ':' rest).bind fun rest =>
  (twoDigits 0 60 rest).map fun (_, rest) => afterFraction rest

def readTime (text : List Char) : Attempt Unit :=
  match twoDigits 0 23 text with
  | some (_, ':' :: rest) =>
    match timeTail rest with
    | none => .faulty
    | some after => .read () after
  | _ => .other

/-- What follows hours and minutes. -/
def afterHours (text : List Char) : Option (List Char) :=
  (twoDigits 0 23 text).bind fun (_, rest) =>
  (expect ':' rest).bind fun rest =>
  (twoDigits 0 59 rest).map (·.2)

/-- What follows the offset from universal time, if there is one. -/
def afterOffset (text : List Char) : Option (List Char) :=
  match text with
  | 'Z' :: rest | 'z' :: rest => some rest
  | '+' :: rest | '-' :: rest => afterHours rest
  | rest => some rest

/-- What follows a date, from its time on if there is one. -/
def afterDate (text : List Char) : Attempt Unit :=
  match text with
  | c :: rest =>
    if c = 'T' || c = 't' || c = ' ' then
      match readTime rest with
      | .other => .read () text
      | .faulty => .faulty
      | .read _ after =>
        match afterOffset after with
        | none => .faulty
        | some last => .read () last
    else .read () text
  | [] => .read () text

def readDay (year : Nat) (text : List Char) : Option (List Char) :=
  (twoDigits 1 12 text).bind fun (month, rest) =>
  (expect '-' rest).bind fun rest =>
  (twoDigits 1 31 rest).bind fun (day, rest) =>
    if daysIn year month < day then none else some rest

/-- A date with or without a time, or a time, in front. -/
def readDateTime (text : List Char) : Attempt Unit :=
  match text with
  | a :: b :: c :: d :: '-' :: rest =>
    if [a, b, c, d].all Char.isDigit then
      match readDay (valueOf 10 [a, b, c, d]) rest with
      | none => .faulty
      | some after => afterDate after
    else readTime text
  | _ => readTime text

/-- Whether a text is nothing, or an offset of at most a day. -/
def isOffset (text : List Char) : Bool :=
  match text with
  | [] | ['Z'] | ['z'] => true
  | [sign, a, b, ':', c, d] =>
    (sign = '+' || sign = '-') && [a, b, c, d].all Char.isDigit &&
      valueOf 10 [a, b] * 60 + valueOf 10 [c, d] ≤ 24 * 60
  | _ => false

/-- Whether a text that is taken from a document is a date or a time. Offsets are read less strictly
than in the document itself. -/
def isDateText (text : List Char) : Bool :=
  match text with
  | _ :: _ :: ':' :: _ =>
    match readTime text with
    | .read _ [] => true
    | _ => false
  | a :: b :: c :: d :: '-' :: rest =>
    [a, b, c, d].all Char.isDigit &&
      match readDay (valueOf 10 [a, b, c, d]) rest with
      | none => false
      | some [] => true
      | some (mark :: time) =>
        (mark = 'T' || mark = 't' || mark = ' ') &&
          match readTime time with
          | .read _ after => isOffset after
          | _ => false
  | _ => false

end TestSelection.Toml
