import TestSelection.Decimal.Shortest
import TestSelection.Document.Json
import TestSelection.Document.Tree

/-!
What a YAML scalar stands for. A plain scalar is a null, a boolean, an integer, a floating-point
number or else a text, by the way it is written; a tag can demand one of these kinds. Digits with a
superfluous zero in front are a text.
-/

namespace TestSelection.Yaml

def isNull (content : String) : Bool := ["null", "Null", "NULL", "~"].contains content

def boolean? (content : String) : Option Bool :=
  if ["true", "True", "TRUE"].contains content then some true
  else if ["false", "False", "FALSE"].contains content then some false
  else none

def isSign (c : Char) : Bool := c = '+' || c = '-'

def startsWithSign (text : List Char) : Bool := text.head?.any isSign

/-- Whether a text is two digits or more of which the first is a zero, behind a sign or not. -/
def hasIdleZero (text : List Char) : Bool :=
  match (if startsWithSign text then text.drop 1 else text) with
  | '0' :: c :: rest => (c :: rest).all Char.isDigit
  | _ => false

def digitIn? (base : Nat) (c : Char) : Option Nat :=
  (JsonText.hexValue? c).bind fun digit => if digit < base then some digit else none

def natural? (base : Nat) (digits : List Char) : Option Nat :=
  if digits.isEmpty then none
  else digits.foldlM (fun value c => (digitIn? base c).map fun digit => base * value + digit) 0

/-- The base that a text announces by its first two characters, and what follows them. -/
def based? (text : List Char) : Option (Nat × List Char) :=
  match text with
  | '0' :: 'x' :: rest => some (16, rest)
  | '0' :: 'o' :: rest => some (8, rest)
  | '0' :: 'b' :: rest => some (2, rest)
  | _ => none

/-- A number without a minus sign. -/
def unsignedInteger? (text : List Char) : Option Nat :=
  let body := match text with
    | '+' :: rest => rest
    | _ => text
  match (based? body).bind fun (base, digits) => natural? base digits with
  | some value => some value
  | none => if startsWithSign body || hasIdleZero body then none else natural? 10 body

/-- A number with a minus sign. -/
def negativeInteger? (text : List Char) : Option Int :=
  match text with
  | '-' :: body =>
    match (based? body).bind fun (base, digits) => natural? base digits with
    | some value => some (-value)
    | none => if hasIdleZero body then none else (natural? 10 body).map fun value => -(value : Int)
  | _ => none

def integerKind? (content : String) : Option Found :=
  match unsignedInteger? content.toList, negativeInteger? content.toList with
  | some value, _ =>
    if value < Nat.pow 2 64 then some (.integer value)
    else if value < Nat.pow 2 128 then some (.wide value)
    else none
  | none, some value =>
    if -(Int.pow 2 63) ≤ value then some (.integer value)
    else if -(Int.pow 2 127) ≤ value then some (.wide value)
    else none
  | none, none => none

/-- The value of digits with a point or an exponent among them. -/
def decimal? (negative : Bool) (text : List Char) : Option Binary64 :=
  let whole := text.takeWhile Char.isDigit
  let rest := text.dropWhile Char.isDigit
  let (fraction, rest) :=
    match rest with
    | '.' :: more => (more.takeWhile Char.isDigit, more.dropWhile Char.isDigit)
    | _ => ([], rest)
  if whole.isEmpty && fraction.isEmpty then none
  else
    let digits := (natural? 10 (whole ++ fraction)).getD 0
    let finish (exponent : Int) := Binary64.ofDecimal negative digits (exponent - fraction.length)
    match rest with
    | [] => some (finish 0)
    | c :: power =>
      if c = 'e' || c = 'E' then
        let down := power.head? = some '-'
        (natural? 10 (if startsWithSign power then power.drop 1 else power)).map fun value =>
          finish (if down then -(value : Int) else value)
      else none

def finite? : Binary64 → Option Binary64
  | .finite negative mantissa exponent => some (.finite negative mantissa exponent)
  | _ => none

def float? (content : String) : Option Binary64 :=
  if [".nan", ".NaN", ".NAN"].contains content then some .nan
  else if ["-.inf", "-.Inf", "-.INF"].contains content then some (.infinite true)
  else if [".inf", ".Inf", ".INF", "+.inf", "+.Inf", "+.INF"].contains content then
    some (.infinite false)
  else
    match content.toList with
    | '+' :: rest => if startsWithSign rest then none else (decimal? false rest).bind finite?
    | '-' :: rest => (decimal? true rest).bind finite?
    | text => (decimal? false text).bind finite?

/-- What a plain scalar without a tag stands for. -/
def plainKind (content : String) : Found :=
  if content = "" || isNull content then .unit
  else
    match boolean? content with
    | some value => .boolean value
    | none =>
      match integerKind? content with
      | some found => found
      | none =>
        if hasIdleZero content.toList then .text content
        else
          match float? content with
          | some number => .float number.positionalText
          | none => .text content

def standardTag (name : String) : String := "tag:yaml.org,2002:" ++ name

/-- What a scalar with a tag stands for. -/
def taggedKind (tag content : String) (plain : Bool) : Found :=
  if tag = standardTag "bool" then
    match boolean? content with
    | some value => .boolean value
    | none => .mistagged content "a boolean"
  else if tag = standardTag "int" then
    (integerKind? content).getD (.mistagged content "an integer")
  else if tag = standardTag "float" then
    match float? content with
    | some number => .float number.positionalText
    | none => .mistagged content "a float"
  else if tag = standardTag "null" then
    if isNull content then .unit else .mistagged content "null"
  else if tag.startsWith "!" && plain then plainKind content
  else .text content

end TestSelection.Yaml
