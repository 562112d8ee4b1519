import TestSelection.FileSystem.Basic
import TestSelection.FileSystem.Path
import TestSelection.Settings.Config

/-!
Settings from a file. A graph path in them is read from the directory that holds the file.
-/

namespace TestSelection.Config

/-- The settings with their graph path as seen from the directory of the file at `path`. -/
def anchored (config : Config) (path : String) : Config :=
  { config with
    graphPath := config.graphPath.map fun graph =>
      ((Path.parent? path).map fun directory => Path.join directory graph).getD graph }

/-- The settings in the file at `path`, with the keys in it that have no meaning. -/
def load (files : FileSystem) (path : String) : Except Failure (Config × List String) :=
  match files.readText path with
  | .error fault => .error (.unreadable path fault)
  | .ok text =>
    match parse text with
    | .error fault => .error (.config fault (some path))
    | .ok (config, unknown) => .ok (config.anchored path, unknown)

end TestSelection.Config
