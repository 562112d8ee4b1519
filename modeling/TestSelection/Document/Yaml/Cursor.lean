/-!
A place in a YAML text: the characters still to be read, how many have been read, and the line and
column. A line ends with a line feed, a carriage return, both, a next-line character, or a line or
paragraph separator.
-/

namespace TestSelection.Yaml

structure Cursor where
  rest : List Char
  index : Nat := 0
  line : Nat := 0
  column : Nat := 0

def isBreak (c : Char) : Bool :=
  c = '\n' || c = '\r' || c.toNat = 0x85 || c.toNat = 0x2028 || c.toNat = 0x2029

def isBlank (c : Char) : Bool := c = ' ' || c = '\t'

/-- A character of a name: an ASCII letter or digit, an underscore or a hyphen. -/
def isWord (c : Char) : Bool := c.isAlphanum || c = '_' || c = '-'

/-- The characters that a text may hold at all. -/
def isAllowed (c : Char) : Bool :=
  let n := c.toNat
  n = 0x09 || n = 0x0A || n = 0x0D || (0x20 ≤ n && n ≤ 0x7E) || n = 0x85 ||
    (0xA0 ≤ n && n ≤ 0xFFFD) ||
    0x10000 ≤ n

namespace Cursor

def peek (cursor : Cursor) : Option Char := cursor.rest.head?

def peekAt (cursor : Cursor) (offset : Nat) : Option Char := cursor.rest[offset]?

def starts (cursor : Cursor) (c : Char) : Bool := cursor.peek == some c

def startsAt (cursor : Cursor) (offset : Nat) (c : Char) : Bool := cursor.peekAt offset == some c

def isEnd (cursor : Cursor) : Bool := cursor.rest.isEmpty

def holdsAt (cursor : Cursor) (offset : Nat) (test : Char → Bool) : Bool :=
  match cursor.peekAt offset with
  | some c => test c
  | none => false

/-- Whether a blank, a line break or the end stands at an offset. -/
def isGapAt (cursor : Cursor) (offset : Nat) : Bool :=
  match cursor.peekAt offset with
  | some c => isBlank c || isBreak c
  | none => true

def atBlank (cursor : Cursor) : Bool := cursor.holdsAt 0 isBlank

def atBreak (cursor : Cursor) : Bool := cursor.holdsAt 0 isBreak

def atGap (cursor : Cursor) : Bool := cursor.isGapAt 0

def atBreakOrEnd (cursor : Cursor) : Bool := cursor.isEnd || cursor.atBreak

/-- Passes over characters within a line. -/
def skip (cursor : Cursor) (count : Nat) : Cursor :=
  ⟨cursor.rest.drop count, cursor.index + count, cursor.line, cursor.column + count⟩

/-- Passes over the characters in front that satisfy `test`, all of them within a line. -/
def skipWhile (cursor : Cursor) (test : Char → Bool) : Cursor :=
  cursor.skip (cursor.rest.takeWhile test).length

/-- Passes over a line break and gives the text it counts as. -/
def takeBreak (cursor : Cursor) : List Char × Cursor :=
  let next (count : Nat) : Cursor :=
    ⟨cursor.rest.drop count, cursor.index + count, cursor.line + 1, 0⟩
  match cursor.rest with
  | '\r' :: '\n' :: _ => (['\n'], next 2)
  | c :: _ =>
    if c.toNat = 0x2028 || c.toNat = 0x2029 then ([c], next 1)
    else if isBreak c then (['\n'], next 1)
    else ([], cursor)
  | [] => ([], cursor)

def skipBreak (cursor : Cursor) : Cursor := cursor.takeBreak.2

/-- Whether a line starts here with three of the given character and a gap behind them. -/
def atMark (cursor : Cursor) (c : Char) : Bool :=
  cursor.column = 0 && cursor.startsAt 0 c && cursor.startsAt 1 c && cursor.startsAt 2 c &&
    cursor.isGapAt 3

/-- Whether a document is marked to start or to end here. -/
def atDocumentMark (cursor : Cursor) : Bool := cursor.atMark '-' || cursor.atMark '.'

/-- Passes over the blanks and the comment at the end of a line, and over its break. -/
def finishLine (cursor : Cursor) : Option Cursor :=
  let blank := cursor.skipWhile isBlank
  let shown := if blank.starts '#' then blank.skipWhile fun c => !isBreak c else blank
  if shown.atBreakOrEnd then some shown.skipBreak else none

end Cursor

end TestSelection.Yaml
