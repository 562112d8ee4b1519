import TestSelection.CommandLine.Basic
import TestSelection.Detection.Registry
import TestSelection.Detection.Selector
import TestSelection.Settings.Discovery
import TestSelection.Settings.Stored

/-!
What a command works with: the directory to inspect, the settings that hold for it with the choices
of the command line laid over them, and the selector that these lead to.
-/

namespace TestSelection

/-- The settings that were found, with the file they come from and the keys in it that have no
meaning. -/
structure FoundSettings where
  path : Option String
  config : Config
  unknown : List String

structure Session where
  root : String
  settingsPath : Option String
  config : Config
  selector : Selector

namespace Session

/-- The directory to inspect, for a command that is given in the directory `directory`. -/
def rootOf (invocation : Invocation) (directory : String) : String :=
  match invocation.repo with
  | some path => Path.join directory path
  | none => directory

/-- Finds and reads the settings that hold for the directory `root`. -/
def findSettings (files : FileSystem) (invocation : Invocation) (root : String) :
    Logged (Except Failure FoundSettings) :=
  match Settings.resolve files invocation.config root with
  | .error failure => Logged.pure (.error failure)
  | .ok none => ⟨.ok ⟨none, {}, []⟩, [⟨.session, .debug, "no config found, using defaults"⟩]⟩
  | .ok (some path) =>
    ⟨(Config.load files path).map fun (config, unknown) => ⟨some path, config, unknown⟩,
      [⟨.session, .debug, s!"loading config from {path}"⟩]⟩

/-- The session for the settings that were found. -/
def ofSettings (invocation : Invocation) (root : String) (found : FoundSettings) :
    Logged (Except Failure Session) :=
  let config :=
    { found.config with
      selection :=
        found.config.selection.override invocation.detector invocation.referenceCommit }
  (Registry.builtin.select config.selection).bind fun selected =>
    Logged.pure (selected.map fun source =>
      ⟨root, found.path, config, ⟨root, source, config.layout.sourceLayout⟩⟩)

/-- The session of a command that is given in the directory `directory`. -/
def start (files : FileSystem) (invocation : Invocation) (directory : String) :
    Logged (Except Failure Session) :=
  let root := rootOf invocation directory
  (findSettings files invocation root).bind fun
    | .error failure => Logged.pure (.error failure)
    | .ok found => ofSettings invocation root found

end Session

end TestSelection
