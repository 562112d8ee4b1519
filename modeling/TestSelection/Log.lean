/-!
What a step tells about itself: lines of a part of the program with a level, collected in the order
in which they arise. A computation that logs returns its lines beside its value. Characters in a
message that steer a terminal are written out, so a logged text cannot act on the terminal that
shows it.
-/

namespace TestSelection

inductive LogLevel
  | error
  | warn
  | info
  | debug
  | trace
  deriving Repr, DecidableEq

namespace LogLevel

def label : LogLevel → String
  | error => "ERROR"
  | warn => "WARN"
  | info => "INFO"
  | debug => "DEBUG"
  | trace => "TRACE"

/-- How much is told at a level; a lower rank is more urgent. -/
def rank : LogLevel → Nat
  | error => 1
  | warn => 2
  | info => 3
  | debug => 4
  | trace => 5

end LogLevel

/-- The part of the program that a line comes from. -/
inductive LogPart
  | session
  | choice
  | selector
  | repository
  | graph
  deriving Repr, DecidableEq

namespace LogPart

/-- The name by which a filter knows a part; all of them start with the program's. -/
def path : LogPart → String
  | session => "modgate::session"
  | choice => "modgate::strategy"
  | selector => "modgate::extension"
  | repository => "modgate::git"
  | graph => "modgate::cmd_select"

end LogPart

structure LogLine where
  origin : LogPart
  level : LogLevel
  message : String
  deriving Repr, DecidableEq

namespace LogLine

/-- A character of a message as it is shown: escape, bell, backspace, form feed and delete by two
hexadecimal digits, the characters from U+0080 to U+009F by their code point between braces. -/
def shownChar (c : Char) : String :=
  if c.toNat = 0x1b then "\\x1b"
  else if c.toNat = 0x07 then "\\x07"
  else if c.toNat = 0x08 then "\\x08"
  else if c.toNat = 0x0c then "\\x0c"
  else if c.toNat = 0x7f then "\\x7f"
  else if 0x80 ≤ c.toNat && c.toNat ≤ 0x9f then
    "\\u\x7b" ++ String.ofList (Nat.toDigits 16 c.toNat) ++ "\x7d"
  else String.singleton c

def text (line : LogLine) : String :=
  line.level.label ++ " " ++ String.join (line.message.toList.map shownChar)

end LogLine

/-- A value with the lines that were logged while it was computed. -/
structure Logged (α : Type) where
  value : α
  log : List LogLine := []

namespace Logged

variable {α β : Type}

def pure (value : α) : Logged α := ⟨value, []⟩

def bind (first : Logged α) (next : α → Logged β) : Logged β :=
  ⟨(next first.value).value, first.log ++ (next first.value).log⟩

end Logged

end TestSelection
