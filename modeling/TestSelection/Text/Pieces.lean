/-!
Cutting text at separators and joining it again. Pieces of a text are the parts between
separators, empty ones included; its names are the non-empty pieces. Lines end at a line feed,
and a carriage return right before it belongs to the line break.
-/

namespace TestSelection.Text

/-- All parts of `text` between the characters that satisfy `separator`. -/
def pieces (separator : Char → Bool) (text : List Char) : List (List Char) :=
  text.splitOnP separator

/-- The non-empty parts of `text` between separators. -/
def names (separator : Char → Bool) (text : String) : List String :=
  ((pieces separator text.toList).filter fun piece => !piece.isEmpty).map String.ofList

/-- The dot-separated segments of a text, empty ones included. -/
def segments (text : String) : List (List Char) := text.toList.splitOn '.'

def joinWith (separator : String) (parts : List String) : String := separator.intercalate parts

/-- What stands before and after the first occurrence of `mark`. -/
def cutFirst (mark : Char) (text : List Char) : Option (List Char × List Char) :=
  match text.dropWhile (· ≠ mark) with
  | [] => none
  | _ :: rest => some (text.takeWhile (· ≠ mark), rest)

/-- What stands before and after the last occurrence of `mark`. -/
def cutLast (mark : Char) (text : List Char) : Option (List Char × List Char) :=
  (cutFirst mark text.reverse).map fun (after, before) => (before.reverse, after.reverse)

/-- The rest of `text` after `start`, when `text` begins with it. -/
def dropStart? (start text : List Char) : Option (List Char) :=
  if start.isPrefixOf text then some (text.drop start.length) else none

/-- What stands before `ending`, when `text` ends with it. -/
def dropEnd? (ending text : List Char) : Option (List Char) :=
  if ending.isSuffixOf text then some (text.take (text.length - ending.length)) else none

def dropReturn (line : List Char) : List Char :=
  if line.getLast? = some '\r' then line.dropLast else line

/-- The lines of a text. A final line feed ends the last line and does not open another one. -/
def lines (text : List Char) : List (List Char) :=
  let all := text.splitOn '\n'
  let closed := all.dropLast.map dropReturn
  match all.getLast? with
  | some (c :: rest) => closed ++ [c :: rest]
  | _ => closed

/-- `text` filled up with blanks on the right to `width` characters. -/
def padRight (width : Nat) (text : String) : String :=
  text ++ String.ofList (List.replicate (width - text.length) ' ')

end TestSelection.Text
