import TestSelection.Candidate
import TestSelection.Failure
import TestSelection.Text.Pieces
import TestSelection.Text.Utf8

/-!
The candidates of a command. Every argument is a candidate, except that a dash stands for the
candidates that the input lists, one in a line. The input can be read only once, so only the first
dash stands for anything. Blank lines of the input and lines that begin with `#` are passed over.
-/

namespace TestSelection

/-- Why a command is not carried out: a failure, or input that is no text. -/
inductive Refusal
  | failure (failure : Failure)
  | input (fault : ReadFault)
  deriving Repr, DecidableEq

namespace Refusal

def message : Refusal → String
  | failure cause => cause.message
  | input fault => fault.message

def exitCode : Refusal → ExitCode
  | failure cause => cause.exitCode
  | input _ => .internalError

end Refusal

namespace CommandLine

def dash : String := "-"

/-- The candidate of an identity. -/
def candidate (identity : String) : Except Refusal TestCandidate :=
  match TestCandidate.parse? identity with
  | none => .error (.failure (.argument (.invalidIdentity identity)))
  | some candidate => .ok candidate

/-- The identity in a line of the input, unless the line is passed over. -/
def identityIn (line : String) : Option String :=
  let text := Text.trim line
  if text = "" || text.startsWith "#" then none else some text

/-- The text of a line. -/
def lineText (line : Bytes) : Except ReadFault String :=
  (Text.ofUtf8? line.toByteArray).elim (.error .invalidText) .ok

/-- The texts of the lines of the input, without the bytes that end them. Where the input cannot be
read to its end, the fault takes the place of the line that has been begun. -/
def inputLines (input : Bytes) (fault : Option ReadFault) : List (Except ReadFault String) :=
  let lines := input.splitOn 0x0a
  match fault with
  | some fault => lines.dropLast.map lineText ++ [.error fault]
  | none => (if lines.getLast? = some [] then lines.dropLast else lines).map lineText

/-- The candidates in the lines of the input. -/
def readLines : List (Except ReadFault String) → Except Refusal (List TestCandidate)
  | [] => .ok []
  | .error fault :: _ => .error (.input fault)
  | .ok text :: rest =>
    match identityIn text with
    | none => readLines rest
    | some identity =>
      (candidate identity).bind fun first =>
        (readLines rest).map fun others => first :: others

/-- The candidates of the arguments, when `lines` is what can still be read. -/
def readCandidates (lines : List (Except ReadFault String)) :
    List String → Except Refusal (List TestCandidate)
  | [] => .ok []
  | argument :: rest =>
    if argument = dash then
      (readLines lines).bind fun listed =>
        (readCandidates [] rest).map fun others => listed ++ others
    else
      (candidate argument).bind fun first =>
        (readCandidates lines rest).map fun others => first :: others

end CommandLine

end TestSelection
