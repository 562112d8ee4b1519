import TestSelection.Failure
import TestSelection.FileSystem.Basic
import TestSelection.FileSystem.Path

/-!
Where the settings are. A path given explicitly has to name a file. Otherwise the search starts in
a directory and goes up one parent after the other, as the text of the path names them; it ends at
the first settings file, or at a directory that holds a repository.
-/

namespace TestSelection

namespace Settings

def fileName : String := "modgate.toml"

def repositoryName : String := ".git"

/-- The first settings file on the way through `directories`, before one that lies above a
repository. -/
def firstIn (files : FileSystem) : List String → Option String
  | [] => none
  | directory :: rest =>
    if files.isFile (Path.join directory fileName) then some (Path.join directory fileName)
    else if files.isPresent (Path.join directory repositoryName) then none
    else firstIn files rest

/-- The settings file that holds for the directory `start`. -/
def discover (files : FileSystem) (start : String) : Option String :=
  firstIn files (Path.upwards start)

/-- The settings file to use: the one given explicitly, or else the one that is found. -/
def resolve (files : FileSystem) (explicit : Option String) (start : String) :
    Except Failure (Option String) :=
  match explicit with
  | none => .ok (discover files start)
  | some path =>
    if files.isFile path then .ok (some path)
    else .error (.config (.fileNotFound path) (some path))

end Settings

end TestSelection
