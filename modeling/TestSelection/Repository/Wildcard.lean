import TestSelection.FileSystem.Basic

/-!
Patterns with wildcards. A question mark stands for one byte, a set between square brackets for one
of its members, and an asterisk for any number of bytes. In a pattern for paths none of them stands
for a slash; only two asterisks that make up a whole segment stand for any number of segments. A
backslash takes the byte behind it literally.
-/

namespace TestSelection.Wildcard

inductive Token
  | literal (b : UInt8)
  | any (crossing : Bool)
  | many (crossing : Bool)
  | directories
  | oneOf (crossing negated : Bool) (ranges : List (UInt8 × UInt8))
  deriving Repr, DecidableEq

/-- Whether a token for one byte stands for `b`. -/
def Token.admits (b : UInt8) : Token → Bool
  | literal wanted => b = wanted
  | any crossing => crossing || b ≠ FileSystem.slash
  | oneOf crossing negated ranges =>
    (crossing || b ≠ FileSystem.slash) &&
      (ranges.any fun (low, high) => low ≤ b && b ≤ high) ≠ negated
  | many _ | directories => false

/-- Whether the tokens stand for a text. -/
def accepts : List Token → Bytes → Bool
  | [], text => text.isEmpty
  | .many crossing :: rest, text =>
    (List.range (text.length + 1)).any fun i =>
      (crossing || !(text.take i).contains FileSystem.slash) && accepts rest (text.drop i)
  | .directories :: rest, text =>
    accepts rest text ||
      (List.range text.length).any fun i =>
        text[i]? = some FileSystem.slash && accepts rest (text.drop (i + 1))
  | _ :: _, [] => false
  | token :: rest, b :: text => token.admits b && accepts rest text

def asterisk : UInt8 := 0x2a

def backslash : UInt8 := 0x5c

def opening : UInt8 := 0x5b

def closing : UInt8 := 0x5d

def colon : UInt8 := 0x3a

/-- The ranges of a named set of bytes. -/
def namedRanges? : String → Option (List (UInt8 × UInt8))
  | "alnum" => some [(0x30, 0x39), (0x41, 0x5a), (0x61, 0x7a)]
  | "alpha" => some [(0x41, 0x5a), (0x61, 0x7a)]
  | "blank" => some [(0x09, 0x09), (0x20, 0x20)]
  | "cntrl" => some [(0x00, 0x1f), (0x7f, 0x7f)]
  | "digit" => some [(0x30, 0x39)]
  | "graph" => some [(0x21, 0x7e)]
  | "lower" => some [(0x61, 0x7a)]
  | "print" => some [(0x20, 0x7e)]
  | "punct" => some [(0x21, 0x2f), (0x3a, 0x40), (0x5b, 0x60), (0x7b, 0x7e)]
  | "space" => some [(0x09, 0x0d), (0x20, 0x20)]
  | "upper" => some [(0x41, 0x5a)]
  | "xdigit" => some [(0x30, 0x39), (0x41, 0x46), (0x61, 0x66)]
  | _ => none

/-- Reads one member of a set: an escaped byte, a range that starts with the byte `previous`, a
named set, or a byte. Gives the byte that a range behind it may start with. -/
def readMember (previous : Option UInt8) :
    Bytes → Option (List (UInt8 × UInt8) × Option UInt8 × Bytes)
  | [] => none
  | b :: rest =>
    let single := some ([(b, b)], some b, rest)
    if b = backslash then rest.head?.map fun c => ([(c, c)], some c, rest.drop 1)
    else if b = 0x2d then
      match previous, rest with
      | some low, high :: behind =>
        if high = closing then single
        else if high = backslash then
          behind.head?.map fun high => ([(low, high)], none, behind.drop 1)
        else some ([(low, high)], none, behind)
      | _, _ => single
    else if b = opening && rest.head? = some colon then
      let name := (rest.drop 1).takeWhile (· ≠ closing)
      match (rest.drop 1).dropWhile (· ≠ closing) with
      | [] => none
      | _ :: behind =>
        if name.getLast? = some colon then
          (namedRanges? (Text.ofBytes name.dropLast)).map fun ranges => (ranges, none, behind)
        else single
    else single

/-- Reads the members of a set up to its closing bracket, which is a member itself if it comes
first. -/
def readSet (first : Bool) (previous : Option UInt8) :
    (fuel : Nat) → Bytes → Option (List (UInt8 × UInt8) × Bytes)
  | 0, _ => none
  | fuel + 1, text =>
    if text.head? = some closing && !first then some ([], text.drop 1)
    else
      (readMember previous text).bind fun (ranges, previous, rest) =>
        (readSet false previous fuel rest).map fun (others, rest) => (ranges ++ others, rest)

/-- The tokens of a pattern; `previous` is the byte before it. A pattern with a set that does not
end has none. Every token takes a byte at least. -/
def tokens (paths : Bool) (previous : Option UInt8) : (fuel : Nat) → Bytes → Option (List Token)
  | _, [] => some []
  | 0, _ => none
  | fuel + 1, b :: rest =>
    let crossing := !paths
    if b = backslash then
      match rest with
      | [] => none
      | c :: rest => (tokens paths (some c) fuel rest).map (.literal c :: ·)
    else if b = 0x3f then (tokens paths (some b) fuel rest).map (.any crossing :: ·)
    else if b = asterisk then
      let behind := rest.dropWhile (· = asterisk)
      let opens := previous = none || previous = some FileSystem.slash
      if behind.length < rest.length && paths && opens && behind.isEmpty then some [.many true]
      else if behind.length < rest.length && paths && opens &&
          behind.head? = some FileSystem.slash then
        (tokens paths (some FileSystem.slash) fuel (behind.drop 1)).map (.directories :: ·)
      else (tokens paths (some b) fuel behind).map (.many crossing :: ·)
    else if b = opening then
      let negated := rest.head? = some 0x21 || rest.head? = some 0x5e
      let members := if negated then rest.drop 1 else rest
      (readSet true none (members.length + 1) members).bind fun (ranges, rest) =>
        (tokens paths (some closing) fuel rest).map (.oneOf crossing negated ranges :: ·)
    else (tokens paths (some b) fuel rest).map (.literal b :: ·)

/-- Whether a pattern stands for a text; `paths` keeps wildcards from standing for a slash. -/
def isMatch (paths : Bool) (pattern text : Bytes) : Bool :=
  match tokens paths none pattern.length pattern with
  | none => false
  | some found => accepts found text

end TestSelection.Wildcard
