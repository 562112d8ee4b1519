import TestSelection.Document.Toml.Text
import TestSelection.Document.Yaml.Cursor

/-!
The scalars of a YAML text. A quoted or plain scalar may go over several lines: the blanks around a
line break vanish, a single break becomes a space, and of several breaks the first one vanishes. A
block scalar keeps its lines or folds them, and says by a sign whether final breaks stay.
-/

namespace TestSelection.Yaml

/-- White space within a scalar: the blanks, or the first break and the further ones. -/
structure Spacing where
  blanks : List Char := []
  broken : Bool := false
  first : List Char := []
  further : List Char := []

namespace Spacing

/-- The text that stands for white space between two parts of a scalar. -/
def folded (spacing : Spacing) : List Char :=
  if !spacing.broken then spacing.blanks
  else if spacing.first = ['\n'] then
    if spacing.further.isEmpty then [' '] else spacing.further
  else spacing.first ++ spacing.further

end Spacing

/-- The white space in front. A tab before column `indent` of a further line is a fault if
`guarded`. -/
def takeSpacing (guarded : Bool) (indent : Nat) :
    Nat → Spacing → Cursor → Option (Spacing × Cursor)
  | 0, _, _ => none
  | fuel + 1, spacing, cursor =>
    match cursor.peek with
    | none => some (spacing, cursor)
    | some c =>
      if isBlank c then
        if guarded && spacing.broken && cursor.column < indent && c = '\t' then none
        else if spacing.broken then takeSpacing guarded indent fuel spacing (cursor.skip 1)
        else takeSpacing guarded indent fuel
          { spacing with blanks := spacing.blanks ++ [c] } (cursor.skip 1)
      else if isBreak c then
        let (written, next) := cursor.takeBreak
        if spacing.broken then takeSpacing guarded indent fuel
          { spacing with further := spacing.further ++ written } next
        else takeSpacing guarded indent fuel ⟨[], true, written, spacing.further⟩ next
      else some (spacing, cursor)

/-- The character or code of an escape whose letter is given: a character, or the number of
hexadecimal digits that follow. -/
def escapeLetter (c : Char) : Option (Char ⊕ Nat) :=
  match c with
  | '0' => some (.inl '\x00')
  | 'a' => some (.inl '\x07')
  | 'b' => some (.inl '\x08')
  | 't' | '\t' => some (.inl '\t')
  | 'n' => some (.inl '\n')
  | 'v' => some (.inl '\x0b')
  | 'f' => some (.inl '\x0c')
  | 'r' => some (.inl '\r')
  | 'e' => some (.inl '\x1b')
  | ' ' => some (.inl ' ')
  | '"' => some (.inl '"')
  | '/' => some (.inl '/')
  | '\\' => some (.inl '\\')
  | 'N' => some (.inl '\u0085')
  | '_' => some (.inl '\u00a0')
  | 'L' => some (.inl '\u2028')
  | 'P' => some (.inl '\u2029')
  | 'x' => some (.inr 2)
  | 'u' => some (.inr 4)
  | 'U' => some (.inr 8)
  | _ => none

/-- The character that an escape stands for. The cursor is at the backslash. -/
def takeEscape (cursor : Cursor) : Option (Char × Cursor) :=
  (cursor.peekAt 1).bind fun letter =>
    match escapeLetter letter with
    | none => none
    | some (.inl c) => some (c, cursor.skip 2)
    | some (.inr count) =>
      (Toml.hexEscape count (cursor.rest.drop 2)).map fun (c, _) => (c, cursor.skip (count + 2))

/-- The characters of a quoted scalar up to a gap or its end, and whether an escaped line break
came last. -/
def takeQuotedRun (double : Bool) : Nat → List Char → Cursor → Option (List Char × Bool × Cursor)
  | 0, _, _ => none
  | fuel + 1, read, cursor =>
    if cursor.atGap then some (read.reverse, false, cursor)
    else
      match cursor.rest with
      | [] => some (read.reverse, false, cursor)
      | c :: rest =>
        if !double && c = '\'' then
          if rest.head? = some '\'' then takeQuotedRun double fuel ('\'' :: read) (cursor.skip 2)
          else some (read.reverse, false, cursor)
        else if double && c = '"' then some (read.reverse, false, cursor)
        else if double && c = '\\' then
          if cursor.holdsAt 1 isBreak then some (read.reverse, true, (cursor.skip 1).skipBreak)
          else (takeEscape cursor).bind fun (e, next) => takeQuotedRun double fuel (e :: read) next
        else takeQuotedRun double fuel (c :: read) (cursor.skip 1)

/-- The rest of a quoted scalar after its opening quote. -/
def takeQuoted (double : Bool) : Nat → List Char → Cursor → Option (List Char × Cursor)
  | 0, _, _ => none
  | fuel + 1, read, cursor =>
    if cursor.atDocumentMark || cursor.isEnd then none
    else
      (takeQuotedRun double (cursor.rest.length + 1) [] cursor).bind fun (run, joined, next) =>
        if next.starts (if double then '"' else '\'') then some (read ++ run, next.skip 1)
        else
          (takeSpacing false 0 (next.rest.length + 1) { broken := joined } next).bind
            fun (spacing, after) => takeQuoted double fuel (read ++ run ++ spacing.folded) after

def isFlowMark (c : Char) : Bool := c = ',' || c = '[' || c = ']' || c = '\x7b' || c = '\x7d'

/-- The characters of a plain scalar up to a gap or an indicator. -/
def takePlainRun (inFlow : Bool) : Nat → List Char → Cursor → Option (List Char × Cursor)
  | 0, _, _ => none
  | fuel + 1, read, cursor =>
    match cursor.rest with
    | [] => some (read.reverse, cursor)
    | c :: _ =>
      if isBlank c || isBreak c then some (read.reverse, cursor)
      else if inFlow && c = ':' && cursor.holdsAt 1 fun d => isFlowMark d || d = '?' then none
      else if c = ':' && cursor.isGapAt 1 then some (read.reverse, cursor)
      else if inFlow && isFlowMark c then some (read.reverse, cursor)
      else takePlainRun inFlow fuel (c :: read) (cursor.skip 1)

/-- A plain scalar whose further lines are indented to `indent` at least, and whether the text goes
on at the start of a line behind it. -/
def takePlain (inFlow : Bool) (indent : Nat) :
    Nat → List Char → Spacing → Cursor → Option (List Char × Bool × Cursor)
  | 0, _, _, _ => none
  | fuel + 1, read, spacing, cursor =>
    if cursor.atDocumentMark || cursor.starts '#' then some (read, spacing.broken, cursor)
    else
      (takePlainRun inFlow (cursor.rest.length + 1) [] cursor).bind fun (run, next) =>
        let joined := if run.isEmpty then read else read ++ spacing.folded ++ run
        let left : Spacing := if run.isEmpty then spacing else {}
        if !(next.atBlank || next.atBreak) then some (joined, left.broken, next)
        else
          (takeSpacing true indent (next.rest.length + 1) left next).bind fun (spacing, after) =>
            if !inFlow && after.column < indent then some (joined, spacing.broken, after)
            else takePlain inFlow indent fuel joined spacing after

/-- What becomes of the line breaks at the end of a block scalar. -/
inductive Chomping
  | strip
  | clip
  | keep
  deriving DecidableEq

def chomping? : Option Char → Option Chomping
  | some '+' => some .keep
  | some '-' => some .strip
  | _ => none

/-- A digit for the indentation of a block scalar; zero is none. -/
def takeIncrement (cursor : Cursor) : Option (Nat × Cursor) :=
  match cursor.peek with
  | some c =>
    if c = '0' then none
    else if c.isDigit then some (c.toNat - 48, cursor.skip 1)
    else some (0, cursor)
  | none => some (0, cursor)

/-- The sign and the digit behind the mark of a block scalar, in either order; 0 stands for no
digit. -/
def takeBlockHeader (cursor : Cursor) : Option (Chomping × Nat × Cursor) :=
  match chomping? cursor.peek with
  | some chomping =>
    (takeIncrement (cursor.skip 1)).map fun (increment, next) => (chomping, increment, next)
  | none =>
    (takeIncrement cursor).map fun (increment, next) =>
      if increment = 0 then (.clip, 0, next)
      else
        match chomping? next.peek with
        | some chomping => (chomping, increment, next.skip 1)
        | none => (.clip, increment, next)

/-- The empty lines in front, with the indentation before the line behind them. An `indent` of 0
is still to be found: the deepest of these lines gives it, but it is `least` or more. -/
def takeEmptyLines (least : Nat) :
    Nat → Nat → Nat → List Char → Cursor → Option (Nat × List Char × Cursor)
  | 0, _, _, _, _ => none
  | fuel + 1, indent, deepest, breaks, cursor =>
    let spaces := (cursor.rest.takeWhile (· = ' ')).length
    let next := cursor.skip (if indent = 0 then spaces else min spaces (indent - cursor.column))
    let deepest := max deepest next.column
    if (indent = 0 || next.column < indent) && next.starts '\t' then none
    else if next.atBreak then
      let (written, after) := next.takeBreak
      takeEmptyLines least fuel indent deepest (breaks ++ written) after
    else some (if indent = 0 then max deepest least else indent, breaks, next)

/-- The lines of a block scalar: `content` so far, the break of its last line and the empty lines
behind it, and whether that line started with a blank. -/
def takeBlockLines (literal : Bool) (indent : Nat) :
    Nat → List Char → List Char → List Char → Bool → Cursor →
      Option (List Char × List Char × List Char × Cursor)
  | 0, _, _, _, _, _ => none
  | fuel + 1, content, lastBreak, breaks, blankLine, cursor =>
    if cursor.column ≠ indent || cursor.isEnd then some (content, lastBreak, breaks, cursor)
    else
      let blank := cursor.atBlank
      let joint :=
        if !literal && lastBreak = ['\n'] && !blankLine && !blank then
          if breaks.isEmpty then [' '] else breaks
        else lastBreak ++ breaks
      let line := cursor.rest.takeWhile fun c => !isBreak c
      let (written, next) := (cursor.skip line.length).takeBreak
      (takeEmptyLines 1 (next.rest.length + 1) indent 0 [] next).bind fun (_, empty, after) =>
        takeBlockLines literal indent fuel (content ++ joint ++ line) written empty blank after

/-- A block scalar in a block of indentation `outer`, without its mark. -/
def takeBlock (literal : Bool) (outer : Int) (cursor : Cursor) : Option (List Char × Cursor) :=
  (takeBlockHeader cursor).bind fun (chomping, increment, next) =>
  next.finishLine.bind fun start =>
    let given := if increment = 0 then 0 else increment + outer.toNat
    let fuel := start.rest.length + 2
    (takeEmptyLines (max 1 (outer + 1).toNat) fuel given 0 [] start).bind
      fun (indent, empty, first) =>
    (takeBlockLines literal indent fuel [] [] empty false first).map
      fun (content, lastBreak, breaks, after) =>
        match chomping with
        | .strip => (content, after)
        | .clip => (content ++ lastBreak, after)
        | .keep => (content ++ lastBreak ++ breaks, after)

end TestSelection.Yaml
