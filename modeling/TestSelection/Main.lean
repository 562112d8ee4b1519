import TestSelection.CommandLine.Run
import TestSelection.Repository.Local

/-!
The program. It reads the files that a command may ask about into a file system value, lets the
command line be carried out on it, and writes what comes of that. Of a link only where it leads is
read, and of a file not whether it is executable.
-/

namespace TestSelection.Program

def placeOf (path : String) : Location := FileSystem.namesOf (Text.bytes path)

def variableNames : List String :=
  ["MODGATE_CONFIG", "MODGATE_DETECTOR", "MODGATE_REFERENCE_COMMIT", "MODGATE_LOG", "NO_COLOR",
    "COLOR", "TERM"] ++ Surroundings.agentNames

def readEnvironment : IO Environment :=
  variableNames.filterMapM fun name => do
    return (← IO.getEnv name).map fun value => (name, value)

/-- The way from the directory `start` to a place. -/
def wayTo (start place : Location) : Bytes :=
  let shared := ((start.zip place).takeWhile fun pair => pair.1 = pair.2).length
  [FileSystem.slash].intercalate
    (List.replicate (start.length - shared) [FileSystem.dot, FileSystem.dot] ++ place.drop shared)

/-- Why something could not be read. -/
def faultOf : IO.Error → ReadFault
  | .permissionDenied _ number details => .stated s!"{details} (os error {number})"
  | .inappropriateType _ _ _ => .isDirectory
  | error => .stated error.toString

/-- The file system with a file at a place, whose content may be withheld. -/
def addContent (files : FileSystem) (place : Location) : Except IO.Error ByteArray → FileSystem
  | .ok content => { files with nodes := files.nodes ++ [(place, .file content false)] }
  | .error error =>
    { files with
      nodes := files.nodes ++ [(place, .file ByteArray.empty false)]
      withheld := files.withheld ++ [(place, faultOf error)] }

def addNode (files : FileSystem) (place : Location) (node : Node) : FileSystem :=
  { files with nodes := files.nodes ++ [(place, node)] }

/-- The file system with what stands at an entry and, if `deep`, below it. Of what cannot be looked
at nothing is added. -/
partial def gather (deep : Bool) (files : FileSystem) (entry : IO.FS.DirEntry) :
    IO FileSystem := do
  let path := entry.path
  let place := placeOf path.toString
  try
    match (← path.symlinkMetadata).type with
    | .file => return addContent files place (← (IO.FS.readBinFile path).toBaseIO)
    | .symlink =>
      let target := placeOf (← IO.FS.realPath path).toString
      return addNode files place (.link (wayTo place.dropLast target))
    | .dir =>
      let found := addNode files place .directory
      if deep then (← path.readDir).foldlM (gather deep) found else return found
    | .other => return files
  catch _ => return files

def entryAt (place : Location) : IO.FS.DirEntry :=
  ⟨Text.ofBytes (FileSystem.pathOf place.dropLast), Text.ofBytes (place.getLastD [])⟩

/-- A place and the places above it, the root left out. -/
def upwards (place : Location) : List Location := Repository.levels place

/-- Reads a file and the directories above it. -/
def addFile (files : FileSystem) (path : String) : IO FileSystem := do
  let mut files := files
  let names := FileSystem.namesOf (Text.bytes path)
  for count in List.range (names.length + 1) do
    let start := if Path.isAbsolute path then [] else files.here
    let step := FileSystem.pathOf (start ++ names.take count)
    try
      let place := placeOf (← IO.FS.realPath (Text.ofBytes step)).toString
      for level in upwards place do
        if (files.node? level).isNone then
          files ← gather false files (entryAt level)
    catch _ => pure ()
  return files

/-- Whether a repository may begin at a place. -/
def mayBegin (files : FileSystem) (place : Location) : Bool :=
  (files.node? (place ++ [Repository.entryName])).isSome ||
    Repository.isRepository files place

/-- Reads the settings and marks of a repository on the way upwards from a directory. -/
def addSurroundings (files : FileSystem) (path : String) : IO FileSystem := do
  let mut files ← addFile files path
  for level in upwards ((files.locate path).toOption.getD []) do
    for name in [Settings.fileName, Settings.repositoryName, "HEAD", "objects", "refs"] do
      if (files.node? (level ++ [Text.bytes name])).isNone then
        files ← gather false files (entryAt (level ++ [Text.bytes name]))
  return files

/-- The place at which the nearest repository around a directory may begin. -/
def nearest? (files : FileSystem) (path : String) : Option Location :=
  (upwards ((files.locate path).toOption.getD [])).find? (mayBegin files)

/-- The file system with what another one has besides. -/
def withFound (files found : FileSystem) : FileSystem :=
  let isNew (place : Location) : Bool := (files.node? place).isNone
  { files with
    nodes := files.nodes ++ found.nodes.filter fun entry => isNew entry.1
    withheld := files.withheld ++ found.withheld.filter fun entry => isNew entry.1 }

/-- Reads all that stands at a place and below it. -/
def addAll (files : FileSystem) (place : Location) : IO FileSystem :=
  return withFound files (← gather true {} (entryAt place))

/-- The paths that the files in a directory name, if these are files of a repository. -/
def pathsNamed (files : FileSystem) (place : Location) : List Bytes :=
  let lines (path : String) : List Bytes :=
    match Repository.contentFrom? files place (Text.bytes path) with
    | none => []
    | some content => Repository.alternateLines (Repository.trimmed content)
  let links := (lines ".git").map fun line =>
    (line.drop Repository.linkStart.length).dropWhile Options.isSpace
  let around := (lines "gitdir").map fun line =>
    FileSystem.pathOf (FileSystem.namesOf line).dropLast
  let options := (Repository.readOptions files place).toOption.getD []
  links ++ lines "commondir" ++ around ++ lines "info/alternates" ++
    ["core.worktree", "core.excludesfile", "core.attributesfile"].filterMap options.text?

/-- The places in a directory that may name others. -/
def naming (place : Location) : List Location :=
  let own := place ++ [Repository.entryName]
  let objects := Text.bytes "objects"
  [place, own, place ++ [objects], own ++ [objects]]

/-- Reads what the given directories name, and what is named there in turn. -/
partial def addNamed (files : FileSystem) (seen : List Location) :
    List Location → IO FileSystem
  | [] => return files
  | place :: rest => do
    if seen.contains place then addNamed files seen rest
    else
      let mut files := files
      let mut found := []
      for start in naming place do
        for path in pathsNamed files start do
          let path :=
            if FileSystem.isAbsolute path then path
            else FileSystem.pathOf start ++ [FileSystem.slash] ++ path
          try
            let target := placeOf (← IO.FS.realPath (Text.ofBytes path)).toString
            files ← addFile files (Text.ofBytes path)
            files ← addAll files target
            found := found ++ [target]
          catch _ => pure ()
      addNamed files (place :: seen) (rest ++ found)

/-- What a stream holds, with the reason why it cannot be read further, if there is one. -/
partial def readAll (stream : IO.FS.Stream) : IO (Bytes × Option ReadFault) := do
  match ← (stream.read 65536).toBaseIO with
  | .error error => return ([], some (faultOf error))
  | .ok part =>
    if part.isEmpty then return ([], none)
    let (rest, fault) ← readAll stream
    return (part.data.toList ++ rest, fault)

/-- Reads what an invocation may ask about. -/
def readFiles (invocation : Invocation) : IO FileSystem := do
  let here := placeOf (← IO.FS.realPath (← IO.currentDir)).toString
  let directory := Text.ofBytes (FileSystem.pathOf here)
  let mut files : FileSystem := { here := here, marksExecutables := false }
  let root := Session.rootOf invocation directory
  for path in [directory, root] do
    files ← addSurroundings files path
  if let some top := nearest? files root then
    files ← addAll files top
    files ← addNamed files [] [top]
  if let some path := invocation.config then
    files ← addFile files path
  if let .ok session := (Session.start files invocation directory).value then
    if let some path := session.config.graphPath then
      files ← addFile files path
  if let some (.select _ (some path) _ _) := invocation.command then
    files ← addFile files (Path.join directory path)
  return files

def readInput : Invocation → IO (Bytes × Option ReadFault)
  | ⟨_, _, _, _, some (.select tests _ _ _)⟩ => do
    if tests.contains CommandLine.dash then readAll (← IO.getStdin) else return ([], none)
  | _ => return ([], none)

end TestSelection.Program

open TestSelection in
/-- Carries out the command line and gives its exit code. -/
def main (arguments : List String) : IO UInt32 := do
  let environment ← Program.readEnvironment
  let output ← IO.getStdout
  let (files, input, fault) ← match CommandLine.parse environment arguments with
    | .ok invocation => do
      pure (← Program.readFiles invocation, ← Program.readInput invocation)
    | .error _ => pure ({}, [], none)
  let around : Surroundings :=
    { environment := environment, files := files, input := input, inputFault := fault,
      terminal := ← output.isTty, reader := Baseline.read files }
  let result := CommandLine.run around arguments
  output.putStr result.output
  output.flush
  (← IO.getStderr).putStr (result.errorText (CommandLine.filterOf environment))
  return UInt32.ofNat result.exitCode.number
