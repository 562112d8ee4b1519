import TestSelection.Detection.Outcome
import TestSelection.Document.Fault
import TestSelection.FileSystem.Fault

/-!
Everything that ends a command early, with the message it is reported by and the exit code it
leads to.
-/

namespace TestSelection

inductive ConfigFault
  | fileNotFound (path : String)
  | noVersion
  | unsupportedVersion (version : Int)
  | document (fault : DocumentFault)
  | unknownDetector (key : String) (available : List String)
  | graphDocument (fault : DocumentFault)
  | graphDeclarations (fault : GraphFault)
  | stated (message : String)
  deriving Repr, DecidableEq

def ConfigFault.message : ConfigFault → String
  | fileNotFound path => s!"config file not found: {path}"
  | noVersion => "missing required field: version"
  | unsupportedVersion version =>
    s!"unsupported config version {version} (supported: 1)\n  Upgrade modgate to use this config."
  | document fault => fault.message
  | unknownDetector key available =>
    s!"unknown change detector `{key}` (available: " ++ ", ".intercalate available ++ ")"
  | graphDocument fault => s!"module graph: {fault.message}"
  | graphDeclarations fault => s!"module graph: {fault.message}"
  | stated message => message

inductive ArgumentFault
  | invalidIdentity (identity : String)
  | noGraph
  | graphNotFound (path : String)
  | stated (message : String)
  deriving Repr, DecidableEq

def ArgumentFault.message : ArgumentFault → String
  | invalidIdentity identity => s!"invalid test identity `{identity}`"
  | noGraph => "no module graph given (use --graph or set [graph] path in modgate.toml)"
  | graphNotFound path => s!"module graph not found: {path}"
  | stated message => message

inductive Failure
  | config (fault : ConfigFault) (path : Option String)
  | argument (fault : ArgumentFault)
  | unreadable (path : String) (fault : ReadFault)
  | detection (error : DetectionError)
  | internal (message : String)
  deriving Repr, DecidableEq

inductive ExitCode
  | success
  | detectionFailed
  | invalidInput
  | internalError
  deriving Repr, DecidableEq

def ExitCode.number : ExitCode → Nat
  | success => 0
  | detectionFailed => 1
  | invalidInput => 2
  | internalError => 3

namespace Failure

def message : Failure → String
  | config fault _ => s!"config error: {fault.message}"
  | argument fault => s!"argument error: {fault.message}"
  | unreadable path fault => s!"io error: {path}: {fault.message}"
  | detection error => s!"detection error: {error.message}"
  | internal message => s!"internal error: {message}"

def exitCode : Failure → ExitCode
  | config _ _ => .invalidInput
  | argument _ => .invalidInput
  | unreadable _ _ => .internalError
  | detection _ => .detectionFailed
  | internal _ => .internalError

end Failure

end TestSelection
