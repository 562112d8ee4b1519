import TestSelection.Log
import TestSelection.Text.Pieces

/-!
Which lines of a log are shown. A filter is a list of directives between commas: a level for
everything, or the name of a part of the program with or without a level. A directive that names a
part goes before one that does not, and among those for the same part the last one counts. A text
with a directive that cannot be read shows nothing, and an empty text shows errors alone.
-/

namespace TestSelection

/-- A directive: the lines of the named part up to a rank are shown. -/
structure LogDirective where
  name : String
  rank : Nat
  deriving Repr, DecidableEq

structure LogFilter where
  directives : List LogDirective := []
  deriving Repr, DecidableEq

namespace LogFilter

/-- The rank that a word or digit stands for, zero for none at all. -/
def rankOf? (word : List Char) : Option Nat :=
  match String.ofList (word.map Char.toLower) with
  | "off" | "0" => some 0
  | "error" | "1" => some LogLevel.error.rank
  | "warn" | "2" => some LogLevel.warn.rank
  | "info" | "3" => some LogLevel.info.rank
  | "debug" | "4" => some LogLevel.debug.rank
  | "trace" | "5" => some LogLevel.trace.rank
  | _ => none

def isNameChar (c : Char) : Bool := c.isAlphanum || c = '_' || c = ':' || c = '-'

def directive? (text : List Char) : Option LogDirective :=
  match rankOf? text with
  | some rank => some ⟨"", rank⟩
  | none =>
    let (name, level) := (Text.cutFirst '=' text).getD (text, [])
    let rank := if level.isEmpty then some LogLevel.trace.rank else rankOf? level
    if name.isEmpty || !name.all isNameChar then none
    else rank.map fun rank => ⟨String.ofList name, rank⟩

/-- The filter that a text describes. -/
def ofText (text : String) : LogFilter :=
  match (Text.names (· = ',') text).mapM fun part => directive? part.toList with
  | none => {}
  | some [] => ⟨[⟨"", LogLevel.error.rank⟩]⟩
  | some directives => ⟨directives⟩

/-- The directive that counts for a part: one whose name starts the part's. -/
def counting (filter : LogFilter) (part : LogPart) : Option LogDirective :=
  (filter.directives.filter fun directive => part.path.startsWith directive.name).foldl
    (fun best directive =>
      match best with
      | none => some directive
      | some known => if directive.name.length < known.name.length then best else some directive)
    none

def shows (filter : LogFilter) (line : LogLine) : Bool :=
  match filter.counting line.origin with
  | none => false
  | some directive => line.level.rank ≤ directive.rank

end LogFilter

end TestSelection
