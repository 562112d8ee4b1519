/-!
Why a file could not be read.
-/

namespace TestSelection

inductive ReadFault
  | notFound
  | notDirectory
  | isDirectory
  | linkLoop
  | nameTooLong
  | invalidName
  | invalidText
  | stated (message : String)
  deriving Repr, DecidableEq

namespace ReadFault

def description : ReadFault → String
  | notFound => "No such file or directory"
  | notDirectory => "Not a directory"
  | isDirectory => "Is a directory"
  | linkLoop => "Too many levels of symbolic links"
  | nameTooLong => "File name too long"
  | invalidName => "file name contained an unexpected NUL byte"
  | invalidText => "stream did not contain valid UTF-8"
  | stated message => message

/-- The number that the system gives to a fault of its own. -/
def number? : ReadFault → Option Nat
  | notFound => some 2
  | notDirectory => some 20
  | isDirectory => some 21
  | linkLoop => some 40
  | nameTooLong => some 36
  | invalidName | invalidText | stated _ => none

def message (fault : ReadFault) : String :=
  match fault.number? with
  | none => fault.description
  | some number => s!"{fault.description} (os error {number})"

end ReadFault

end TestSelection
