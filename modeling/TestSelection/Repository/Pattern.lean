import TestSelection.Repository.Object
import TestSelection.Repository.Wildcard

/-!
Patterns to look for in a text. A byte stands for itself, a period for any byte of a line and a set
between square brackets for one of its members; `^` and `$` stand for the ends of the text. What
stands before `*`, `+`, `?` or a count between braces may be repeated, `|` separates choices, and
round brackets hold things together. A pattern is found in a text if it fits from some place on.
-/

namespace TestSelection

inductive Pattern
  | nothing
  | oneOf (negated : Bool) (ranges : List (UInt8 × UInt8))
  | start
  | finish
  | both (first second : Pattern)
  | either (first second : Pattern)
  | many (repeated : Pattern)
  deriving Repr, DecidableEq

namespace Pattern

/-- The places that some number of steps, `fuel` at most, lead to. -/
def closure (step : Nat → List Nat) : (fuel : Nat) → List Nat → List Nat
  | 0, places => places
  | fuel + 1, places => closure step fuel (places ++ places.flatMap step).eraseDups

/-- The places at which a pattern that fits from place `i` on may come to its end. -/
def ends (text : Bytes) : Pattern → (i : Nat) → List Nat
  | .nothing, i => [i]
  | .oneOf negated ranges, i =>
    match text[i]? with
    | none => []
    | some b =>
      if (ranges.any fun (low, high) => low ≤ b && b ≤ high) = negated then [] else [i + 1]
  | .start, i => if i = 0 then [i] else []
  | .finish, i =>
    if i = text.length || i + 1 = text.length && text[i]? = some StoredObject.newline then [i]
    else []
  | .both first second, i => ((ends text first i).flatMap (ends text second)).eraseDups
  | .either first second, i => (ends text first i ++ ends text second i).eraseDups
  | .many repeated, i => closure (ends text repeated) text.length [i]

def isFoundIn (pattern : Pattern) (text : Bytes) : Bool :=
  (List.range (text.length + 1)).any fun i => !(pattern.ends text i).isEmpty

def literal (b : UInt8) : Pattern := .oneOf false [(b, b)]

/-- Any byte of a line. -/
def any : Pattern := .oneOf true [(StoredObject.newline, StoredObject.newline)]

/-- What a byte behind a backslash stands for. -/
def escaped (b : UInt8) : Pattern :=
  let set (negated : Bool) (name : String) : Pattern :=
    .oneOf negated ((Wildcard.namedRanges? name).getD [])
  match Char.ofNat b.toNat with
  | 'd' => set false "digit"
  | 'D' => set true "digit"
  | 's' => set false "space"
  | 'S' => set true "space"
  | 'w' => .oneOf false [(0x30, 0x39), (0x41, 0x5a), (0x5f, 0x5f), (0x61, 0x7a)]
  | 'W' => .oneOf true [(0x30, 0x39), (0x41, 0x5a), (0x5f, 0x5f), (0x61, 0x7a)]
  | 'n' => literal 0x0a
  | 'r' => literal 0x0d
  | 't' => literal 0x09
  | _ => literal b

def times (pattern : Pattern) : (count : Nat) → Pattern
  | 0 => .nothing
  | count + 1 => .both pattern (times pattern count)

def optional (pattern : Pattern) : Pattern := .either pattern .nothing

/-- A count between braces: how often at least, and how often at most if there is a limit. -/
def count? (text : Bytes) : Option (Nat × Option Nat × Bytes) :=
  (StoredObject.cut 0x7d text).bind fun (inner, rest) =>
    match inner.splitOn 0x2c with
    | [only] => (StoredObject.decimal? only).map fun n => (n, some n, rest)
    | [low, []] => (StoredObject.decimal? low).map fun n => (n, none, rest)
    | [low, high] =>
      (StoredObject.decimal? low).bind fun n =>
        (StoredObject.decimal? high).map fun m => (n, some m, rest)
    | _ => none

/-- The pattern repeated as the text behind it says, and the rest of that text. -/
def repeated (pattern : Pattern) : Bytes → Pattern × Bytes
  | [] => (pattern, [])
  | b :: rest =>
    let eager (text : Bytes) : Bytes :=
      if text.head? = some 0x3f || text.head? = some 0x2b then text.drop 1 else text
    match Char.ofNat b.toNat with
    | '*' => (.many pattern, eager rest)
    | '+' => (.both pattern (.many pattern), eager rest)
    | '?' => (pattern.optional, eager rest)
    | '\x7b' =>
      match count? rest with
      | none => (pattern, b :: rest)
      | some (low, none, rest) => (.both (pattern.times low) (.many pattern), eager rest)
      | some (low, some high, rest) =>
        (.both (pattern.times low) (pattern.optional.times (high - low)), eager rest)
    | _ => (pattern, b :: rest)

/-- Reads what stands up to the next closing bracket, after `sofar`. Every step takes a byte. -/
def readFrom : (fuel : Nat) → (sofar : Pattern) → Bytes → Option (Pattern × Bytes)
  | _, sofar, [] => some (sofar, [])
  | 0, _, _ => none
  | fuel + 1, sofar, b :: rest =>
    let single : Option (Pattern × Bytes) :=
      match Char.ofNat b.toNat with
      | '(' =>
        let inner := if (Text.bytes "?:").isPrefixOf rest then rest.drop 2 else rest
        (readFrom fuel .nothing inner).bind fun (pattern, rest) =>
          if rest.isEmpty then none else some (pattern, rest.drop 1)
      | '[' =>
        let negated := rest.head? = some 0x5e
        let members := if negated then rest.drop 1 else rest
        (Wildcard.readSet true none (members.length + 1) members).map fun (ranges, rest) =>
          (.oneOf negated ranges, rest)
      | '\\' => rest.head?.map fun c => (escaped c, rest.drop 1)
      | '*' | '+' | '?' => none
      | '.' => some (any, rest)
      | '^' => some (.start, rest)
      | '$' => some (.finish, rest)
      | _ => some (literal b, rest)
    if b = 0x29 then some (sofar, b :: rest)
    else if b = 0x7c then
      (readFrom fuel .nothing rest).map fun (other, rest) => (.either sofar other, rest)
    else
      single.bind fun (pattern, behind) =>
        let (pattern, behind) := pattern.repeated behind
        readFrom fuel (.both sofar pattern) behind

/-- The pattern that a text writes. -/
def read (text : Bytes) : Option Pattern :=
  (readFrom text.length .nothing text).bind fun (pattern, rest) =>
    if rest.isEmpty then some pattern else none

end Pattern

end TestSelection
