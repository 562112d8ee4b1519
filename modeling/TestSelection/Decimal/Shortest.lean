import TestSelection.Decimal.Binary64

/-!
The shortest decimal of a binary floating-point number: of the decimals with the fewest digits
that are read back as the number, the one nearest to it. A decimal is read back as the number when
it lies between the midpoints to the two neighbours, the midpoints included for an even mantissa.
-/

namespace TestSelection.Decimal

/-- A positive decimal: `digits` times a power of ten. -/
structure Scaled where
  digits : Nat
  exponent : Int
  deriving Repr, DecidableEq

/-- The exponent of the greatest power of ten that is not above a positive ratio. -/
def floorLog10 (numerator denominator : Nat) : Int :=
  if denominator ≤ numerator then (Nat.toDigits 10 (numerator / denominator)).length - 1
  else
    let places := (Nat.toDigits 10 (denominator / numerator)).length
    if denominator ≤ numerator * Nat.pow 10 (places - 1) then 1 - (places : Int)
    else -(places : Int)

/-- A number with the interval of decimals that are read back as it, in quarters of its last
place: `low` and `high` are the midpoints to its neighbours. -/
structure Neighbourhood where
  low : Nat
  value : Nat
  high : Nat
  exponent : Int
  closed : Bool

def Neighbourhood.of (mantissa : Nat) (exponent : Int) : Neighbourhood :=
  let gap := if mantissa = Nat.pow 2 52 && exponent ≠ Binary64.minExponent then 1 else 2
  ⟨4 * mantissa - gap, 4 * mantissa, 4 * mantissa + 2, exponent - 2, mantissa % 2 = 0⟩

/-- The decimal on the grid of the given power of ten that is read back as the number, nearest to
it and below it at a tie, if there is one. -/
def Neighbourhood.onGrid (hood : Neighbourhood) (power : Int) : Option Scaled :=
  let scaled (n : Nat) := n * Nat.pow 2 hood.exponent.toNat * Nat.pow 10 (-power).toNat
  let unit := Nat.pow 10 power.toNat * Nat.pow 2 (-hood.exponent).toNat
  let inside (n : Nat) :=
    if hood.closed then scaled hood.low ≤ n * unit && n * unit ≤ scaled hood.high
    else scaled hood.low < n * unit && n * unit < scaled hood.high
  let below := scaled hood.value / unit
  let distance := scaled hood.value - below * unit
  match inside below && 0 < below, inside (below + 1) with
  | true, true =>
    let nearBelow := 2 * distance < unit || 2 * distance = unit && below % 2 = 0
    some ⟨if nearBelow then below else below + 1, power⟩
  | true, false => some ⟨below, power⟩
  | false, true => some ⟨below + 1, power⟩
  | false, false => none

/-- The shortest decimal of a positive finite number. Seventeen digits always suffice. -/
def shortest (mantissa : Nat) (exponent : Int) : Scaled :=
  let (numerator, denominator) := Binary64.ratio mantissa exponent
  let top := floorLog10 numerator denominator
  let hood := Neighbourhood.of mantissa exponent
  ((List.range 17).findSome? fun (place : Nat) => hood.onGrid (top - place)).getD ⟨0, 0⟩

/-- Digits and exponent with no trailing zero among the digits. -/
def reduce (decimal : Scaled) : Nat → Scaled
  | 0 => decimal
  | steps + 1 =>
    if decimal.digits ≠ 0 && decimal.digits % 10 = 0 then
      reduce ⟨decimal.digits / 10, decimal.exponent + 1⟩ steps
    else decimal

def digitsOf (n : Nat) : String := String.ofList (Nat.toDigits 10 n)

def zeros (n : Nat) : String := String.ofList (List.replicate n '0')

/-- Positional notation with at least one digit on both sides of the point. -/
def positional (decimal : Scaled) : String :=
  let digits := Nat.toDigits 10 decimal.digits
  if 0 ≤ decimal.exponent then
    String.ofList digits ++ zeros decimal.exponent.toNat ++ ".0"
  else
    let places := (-decimal.exponent).toNat
    if places < digits.length then
      String.ofList (digits.take (digits.length - places)) ++ "." ++
        String.ofList (digits.drop (digits.length - places))
    else "0." ++ zeros (places - digits.length) ++ String.ofList digits

/-- One digit, the others behind a point, and the exponent with its sign and two digits or more. -/
def scientific (decimal : Scaled) : String :=
  let digits := Nat.toDigits 10 decimal.digits
  let exponent := decimal.exponent + digits.length - 1
  let fraction := digits.drop 1
  let written := digitsOf exponent.natAbs
  String.ofList (digits.take 1) ++
    (if fraction.isEmpty then "" else "." ++ String.ofList fraction) ++
    (if exponent < 0 then "e-" else "e+") ++ (if written.length < 2 then "0" else "") ++ written

/-- Whether positional notation is used where long numbers are written with an exponent. -/
def isMiddling (decimal : Scaled) : Bool :=
  let point := decimal.exponent + (Nat.toDigits 10 decimal.digits).length
  (-5 : Int) < point && point ≤ 16

end TestSelection.Decimal

namespace TestSelection.Binary64

/-- Writes a number by its shortest decimal, with `write` for the decimal of a number other than
zero. -/
def writtenWith (write : Decimal.Scaled → String) : Binary64 → String
  | nan => "NaN"
  | infinite negative => if negative then "-inf" else "inf"
  | finite negative mantissa exponent =>
    let sign := if negative then "-" else ""
    if mantissa = 0 then sign ++ "0.0"
    else sign ++ write (Decimal.reduce (Decimal.shortest mantissa exponent) 17)

/-- All digits, in positional notation. -/
def positionalText : Binary64 → String := writtenWith Decimal.positional

/-- Positional notation for numbers of middling size, an exponent for the others. -/
def compactText : Binary64 → String :=
  writtenWith fun decimal =>
    if Decimal.isMiddling decimal then Decimal.positional decimal else Decimal.scientific decimal

end TestSelection.Binary64
