import TestSelection.Document.Toml.Value

/-!
Documents in TOML notation. A document is a run of lines: blank ones, comments, headers that open a
table, and entries of the table opened last. It is read whole before anything in it is looked at, so
one fault spoils all of it.
-/

namespace TestSelection.Toml

/-- What follows the end of a line, a comment before it skipped. -/
def lineEnd (text : List Char) : Option (List Char) :=
  let rest :=
    match skipSpace text with
    | '#' :: more => more.dropWhile isShown
    | other => other
  if rest.isEmpty then some [] else lineBreak? rest

/-- The progress after the line in front. -/
def readLine (progress : Progress) (text : List Char) : Option (Progress × List Char) :=
  match text with
  | '#' :: _ => (lineEnd text).map (progress, ·)
  | '\n' :: rest => some (progress, rest)
  | '\r' :: rest => (expect '\n' rest).map (progress, ·)
  | '[' :: '[' :: rest =>
    (readKey rest).bind fun ((path, key), rest) =>
    (expect ']' rest).bind fun rest =>
    (expect ']' rest).bind fun rest =>
    (lineEnd rest).bind fun after =>
    (progress.openRepeated path key).map (·, after)
  | '[' :: rest =>
    (readKey rest).bind fun ((path, key), rest) =>
    (expect ']' rest).bind fun rest =>
    (lineEnd rest).bind fun after =>
    (progress.openTable path key).map (·, after)
  | _ =>
    (readKey text).bind fun ((path, key), rest) =>
    (expect '=' rest).bind fun rest =>
    (value (2 * text.length + 2) 0 (skipSpace rest)).bind fun (tree, rest) =>
    (lineEnd rest).bind fun after =>
    (progress.add path key tree).map (·, after)

def readLines : Nat → Progress → List Char → Option Progress
  | 0, _, _ => none
  | fuel + 1, progress, text =>
    match skipSpace text with
    | [] => some progress
    | rest => (readLine progress rest).bind fun (next, after) => readLines fuel next after

def dropMark (text : List Char) : List Char :=
  match text with
  | '\ufeff' :: rest => rest
  | _ => text

def dialect : Dialect := ⟨true, false⟩

/-- The document that a text holds. A byte-order mark in front is no part of it. -/
def read (text : String) : Document :=
  match (readLines (text.length + 1) {} (dropMark text.toList)).bind Progress.close with
  | none => ⟨.fault, false⟩
  | some entries => ⟨.record (Node.toEntries entries) true, true⟩

end TestSelection.Toml
