import TestSelection.Document.Toml.Number
import TestSelection.Document.Toml.Table

/-!
Values in TOML notation: texts, numbers, dates, arrays and inline tables. An array may go over
several lines with comments in them and may end in a comma; an inline table stays on one line and
may not. A date is a record with a single entry of a reserved name.

A value may also be kept as it is, whatever it is. A record in it that starts with the reserved name
has to be a date then.
-/

namespace TestSelection.Toml

def dateKey : String := "$__toml_private_datetime"

def dateTree (written : List Char) : Tree :=
  .record [.mk (.text dateKey) (.ofText (String.ofList written))] true

def scalarOf (found : Found) : Tree := .scalar ⟨none, false, found⟩

/-- A value that starts with a sign or a digit. -/
def readNumber (text : List Char) : Option (Tree × List Char) :=
  match readDateTime text with
  | .faulty => none
  | .read _ rest => some (dateTree (text.take (text.length - rest.length)), rest)
  | .other =>
    match readFloat text with
    | .faulty => none
    | .read number rest => some (scalarOf (.float number.positionalText), rest)
    | .other => (readInteger text).map fun (value, rest) => (scalarOf (.integer value), rest)

/-- What follows blanks, comments and line breaks. A comment ends with a line break. -/
def skipAll : Nat → List Char → Option (List Char)
  | 0, _ => none
  | fuel + 1, text =>
    match skipSpace text with
    | '#' :: rest => (lineBreak? (rest.dropWhile isShown)).bind (skipAll fuel)
    | '\n' :: rest => skipAll fuel rest
    | '\r' :: rest => (expect '\n' rest).bind (skipAll fuel)
    | rest => some rest

def skipBetween (text : List Char) : Option (List Char) := skipAll (text.length + 1) text

mutual

/-- The value in front at the given depth. -/
def value : Nat → Nat → List Char → Option (Tree × List Char)
  | 0, _, _ => none
  | fuel + 1, depth, text =>
    match text with
    | '[' :: rest =>
      if depthLimit ≤ depth + 1 then none
      else (skipBetween rest).bind fun after => arrayItems fuel (depth + 1) [] after
    | '\x7b' :: rest =>
      if depthLimit ≤ depth + 1 then none
      else
        match skipSpace rest with
        | '\x7d' :: after => some (.record [] true, after)
        | _ => inlineEntries fuel (depth + 1) [] rest
    | '"' :: _ | '\'' :: _ =>
      (readText text).map fun (content, rest) => (.ofText (String.ofList content), rest)
    | 't' :: 'r' :: 'u' :: 'e' :: rest => some (scalarOf (.boolean true), rest)
    | 'f' :: 'a' :: 'l' :: 's' :: 'e' :: rest => some (scalarOf (.boolean false), rest)
    | 'i' :: 'n' :: 'f' :: rest => some (scalarOf (.float "inf"), rest)
    | 'n' :: 'a' :: 'n' :: rest => some (scalarOf (.float "NaN"), rest)
    | c :: _ => if c = '+' || c = '-' || c.isDigit then readNumber text else none
    | [] => none

/-- The rest of an array, blanks before it skipped, after the items in `read`, last one first. -/
def arrayItems : Nat → Nat → List Tree → List Char → Option (Tree × List Char)
  | 0, _, _, _ => none
  | fuel + 1, depth, read, text =>
    match text with
    | ']' :: rest => some (.sequence read.reverse true, rest)
    | _ =>
      (value fuel depth text).bind fun (item, rest) =>
      (skipBetween rest).bind fun rest =>
        match rest with
        | ',' :: more => (skipBetween more).bind fun after =>
          arrayItems fuel depth (item :: read) after
        | ']' :: after => some (.sequence (item :: read).reverse true, after)
        | _ => none

/-- The rest of an inline table after the entries in `made`. -/
def inlineEntries : Nat → Nat → List (String × Node) → List Char → Option (Tree × List Char)
  | 0, _, _, _ => none
  | fuel + 1, depth, made, text =>
    (readKey text).bind fun ((path, key), rest) =>
    (expect '=' rest).bind fun rest =>
    (value fuel depth (skipSpace rest)).bind fun (tree, rest) =>
    (Node.addValue path key tree made).bind fun entries =>
      match skipSpace rest with
      | ',' :: more => inlineEntries fuel depth entries more
      | '\x7d' :: after => some (.record (Node.toEntries entries) true, after)
      | _ => none

end

/-- Accepts the date in a record that starts with the reserved name. -/
def keepDate (value : Tree) (rest : List Entry) : Except DocumentFault Unit :=
  (value.decodeText "string containing a datetime").bind fun content =>
    if !isDateText content.toList then .error .grammar
    else if rest.isEmpty then .ok ()
    else .error (.wrongLength (rest.length + 1) "1 element in map")

mutual

/-- Accepts a value that is kept as it is. -/
def keep : Tree → Except DocumentFault Unit
  | .scalar _ => .ok ()
  | .sequence items _ => keepItems items
  | .record [] _ => .ok ()
  | .record (.mk key value :: rest) _ =>
    if key = .text dateKey then keepDate value rest
    else (keep value).bind fun _ => keepEntries rest
  | .fault => .error .grammar

def keepItems : List Tree → Except DocumentFault Unit
  | [] => .ok ()
  | item :: rest => (keep item).bind fun _ => keepItems rest

def keepEntries : List Entry → Except DocumentFault Unit
  | [] => .ok ()
  | .mk _ value :: rest => (keep value).bind fun _ => keepEntries rest

end

end TestSelection.Toml
