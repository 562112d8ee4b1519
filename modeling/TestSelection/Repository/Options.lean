import TestSelection.Repository.Object

/-!
The settings of a repository. A settings file consists of sections with named values. A section has
a name, and may have a second name between quotes; a value may go on in the next line, hold
escapes, and be followed by a comment. A key joins the names of its section with its own, where the
second name of the section alone keeps its case. Of several values for a key the last one counts.
-/

namespace TestSelection

/-- Keys with their values, in the order in which they were read. A key may stand without one. -/
abbrev Options := List (Bytes × Option Bytes)

namespace Options

def isSpace (b : UInt8) : Bool := b = 0x20 || 0x09 ≤ b && b ≤ 0x0d

def isLetter (b : UInt8) : Bool := 0x61 ≤ b && b ≤ 0x7a || 0x41 ≤ b && b ≤ 0x5a

def isDigit (b : UInt8) : Bool := 0x30 ≤ b && b ≤ 0x39

def isKeyByte (b : UInt8) : Bool := isLetter b || isDigit b || b = 0x2d

def lower (b : UInt8) : UInt8 := if 0x41 ≤ b && b ≤ 0x5a then b + 0x20 else b

def quote : UInt8 := 0x22

def backslash : UInt8 := 0x5c

def bracket : UInt8 := 0x5d

def period : UInt8 := 0x2e

/-- Removes a comment and the blanks before it, and tells whether the line ends between quotes. -/
def stripComment (quoted : Bool) (line : Bytes) : Bytes × Bool :=
  let rec go (previous : UInt8) (escaped quoted : Bool) : Bytes → Bytes × Bool
    | [] => ([], quoted)
    | b :: rest =>
      let quoted := if b = quote && previous ≠ backslash then !quoted else quoted
      if (b = 0x3b || b = 0x23) && !quoted && !escaped then ([], quoted)
      else
        let (kept, quoted) := go b (b = backslash && !escaped) quoted rest
        (b :: kept, quoted)
  let (kept, quoted) := go 0 false quoted line
  ((kept.reverse.dropWhile isSpace).reverse, quoted)

/-- What an escape letter stands for. -/
def escape? : UInt8 → Option UInt8
  | 0x6e => some 0x0a
  | 0x74 => some 0x09
  | 0x62 => some 0x08
  | 0x22 => some quote
  | 0x5c => some backslash
  | _ => none

/-- A value without its quotes and escapes, and whether it goes on in the next line. -/
def unescape : Bytes → Except RepositoryFault (Bytes × Bool)
  | [] => .ok ([], false)
  | b :: rest =>
    if b = quote then unescape rest
    else if b = backslash then
      match rest with
      | [] => .ok ([], true)
      | letter :: rest =>
        match escape? letter with
        | none => .error (.settingsEscape (Text.ofBytes (letter :: rest)))
        | some meant => (unescape rest).map fun (value, more) => (meant :: value, more)
    else (unescape rest).map fun (value, more) => (b :: value, more)

/-- Reads the second name of a section, which ends at a quote that follows no backslash, and at the
latest at index `last`. Gives what stands from there on, and the index. -/
def secondName (last : Nat) (i : Nat) : Bytes → Except LineFault (Bytes × Bytes × Nat)
  | [] => .error (.unfinishedHeader 0)
  | b :: rest =>
    if b = quote then .ok ([], b :: rest, i)
    else if b = backslash then
      match rest with
      | [] => .error (.unfinishedHeader (i + 2))
      | c :: rest =>
        if i + 2 < last then
          (secondName last (i + 2) rest).map fun (name, after) => (c :: name, after)
        else .ok ([c], rest, i + 2)
    else if i + 1 < last then
      (secondName last (i + 1) rest).map fun (name, after) => (b :: name, after)
    else .ok ([b], rest, i + 1)

/-- The section that a header with two names opens, and what stands behind the header. -/
def secondHeader (first line : Bytes) : Except LineFault (Bytes × Bytes) :=
  match line.dropWhile isSpace with
  | [] => .error .noQuote
  | b :: rest =>
    if b ≠ quote then .error .noQuote
    else
      match rest.reverse.idxOf? quote with
      | none => .error .noClosingQuote
      | some fromEnd =>
        (secondName (rest.length - 1 - fromEnd) 0 rest).bind fun (name, after, i) =>
          match after with
          | b :: c :: behind =>
            if b = quote && c = bracket then .ok (first ++ period :: name, behind)
            else .error (.textAfterQuote (i + 1))
          | _ => .error (.textAfterQuote (i + 1))

/-- Reads the first name of a section behind the opening bracket. -/
def header (column : Nat) (name : Bytes) : Bytes → Except LineFault (Bytes × Bytes)
  | [] => .error (.headerCharacter column)
  | b :: rest =>
    if b = bracket && !name.isEmpty then .ok (name, rest)
    else if isSpace b then secondHeader name rest
    else if isKeyByte b || b = period then header (column + 1) (name ++ [lower b]) rest
    else .error (.headerCharacter column)

/-- The section that a line opens, and what stands behind the header. -/
def sectionOf (line : Bytes) : Except LineFault (Bytes × Bytes) :=
  if line.contains bracket then header 2 [] (line.drop 1) else .error .noClosingBracket

/-- The name in a line and the text of its value, if it has one. -/
def nameOf (line : Bytes) : Except LineFault (Bytes × Option Bytes) :=
  let name := line.takeWhile isKeyByte
  if name.isEmpty then .error .key
  else
    match (line.dropWhile isKeyByte).dropWhile isSpace with
    | [] => .ok (name, none)
    | b :: rest => if b = 0x3d then .ok (name, some (rest.dropWhile isSpace)) else .error .key

/-- The rest of a value that goes on, with the lines behind it. -/
def goOn (quoted : Bool) : List Bytes → Except RepositoryFault (Bytes × List Bytes)
  | [] => .ok ([], [])
  | line :: rest =>
    let (kept, quotedNext) := stripComment quoted line
    if kept.isEmpty then goOn quotedNext rest
    else
      (unescape kept).bind fun (value, more) =>
        if more then (goOn quotedNext rest).map fun (others, behind) => (value ++ others, behind)
        else .ok (value, rest)

def keyOf (group : Option Bytes) (name : Bytes) : Bytes :=
  ((group.map fun group => group ++ [period]).getD []) ++ name.map lower

/-- Reads a settings file from its line `number` on; `fuel` bounds the headers and lines in it. -/
def readLines (path : String) (total : Nat) :
    (fuel : Nat) → Option Bytes → List Bytes → Except RepositoryFault Options
  | _, _, [] => .ok []
  | 0, _, _ => .ok []
  | fuel + 1, group, line :: rest =>
    let number := total - rest.length
    let fault (fault : LineFault) : RepositoryFault := .settingsLine fault path number
    match line.dropWhile isSpace with
    | [] => readLines path total fuel group rest
    | b :: text =>
      if b = 0x5b then
        match sectionOf (b :: text) with
        | .error wrong => .error (fault wrong)
        | .ok (group, behind) => readLines path total fuel (some group) (behind :: rest)
      else if b = 0x3b || b = 0x23 then readLines path total fuel group rest
      else
        let (kept, quoted) := stripComment false (b :: text)
        match nameOf kept with
        | .error wrong => .error (fault wrong)
        | .ok (name, none) =>
          (readLines path total fuel group rest).map fun options =>
            (keyOf group name, none) :: options
        | .ok (name, some text) =>
          (unescape text).bind fun (value, more) =>
          (if more then goOn quoted rest else .ok ([], rest)).bind fun (others, behind) =>
          (readLines path total fuel group behind).map fun options =>
            (keyOf group name, some (value ++ others)) :: options

def byteOrderMark : Bytes := [0xef, 0xbb, 0xbf]

/-- The settings in the file at `path` with the given content. -/
def read (path : String) (content : Bytes) : Except RepositoryFault Options :=
  let content := if byteOrderMark.isPrefixOf content then content.drop 3 else content
  let lines := content.splitOn StoredObject.newline
  readLines path lines.length (content.length + lines.length) none lines

/-- The last value of a key. -/
def value? (options : Options) (key : Bytes) : Option (Option Bytes) :=
  (options.reverse.find? fun option => option.1 = key).map (·.2)

/-- All values of a key. -/
def values (options : Options) (key : Bytes) : List Bytes :=
  options.filterMap fun option => if option.1 = key then some (option.2.getD []) else none

def text? (options : Options) (key : String) : Option Bytes :=
  (options.value? (Text.bytes key)).map fun value => value.getD []

/-- The whole number that a text writes, with the factor that a final letter stands for. -/
def integer? (text : Bytes) : Option Int :=
  let (sign, digits) : Int × Bytes :=
    match text with
    | 0x2d :: rest => (-1, rest)
    | 0x2b :: rest => (1, rest)
    | rest => (1, rest)
  let factor : Option (Nat × Bytes) :=
    match digits.getLast?.map lower with
    | some 0x6b => some (1024, digits.dropLast)
    | some 0x6d => some (1024 * 1024, digits.dropLast)
    | some 0x67 => some (1024 * 1024 * 1024, digits.dropLast)
    | _ => some (1, digits)
  factor.bind fun (factor, digits) =>
    (StoredObject.decimal? digits).map fun n => sign * (n * factor : Nat)

/-- The truth value of a key. A key without a value is true, one with an empty value is false. -/
def truth? (options : Options) (key : String) : Except RepositoryFault (Option Bool) :=
  match options.value? (Text.bytes key) with
  | none => .ok none
  | some none => .ok (some true)
  | some (some value) =>
    let word := Text.ofBytes (value.map lower)
    if ["true", "yes", "on"].contains word then .ok (some true)
    else if ["false", "no", "off", ""].contains word then .ok (some false)
    else
      match integer? value with
      | some n => .ok (some (n ≠ 0))
      | none => .error (.noTruthValue (Text.ofBytes value))

end Options

end TestSelection
