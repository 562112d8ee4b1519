import TestSelection.Repository.Basic

/-!
Where the repository is. The search goes up from a directory and looks at two places at each level:
the entry named `.git` in the directory, and the directory itself. A directory is a repository when
it has a file for where it stands, and directories for objects and references, which may lie in
another directory that it names. A file named `.git` names a directory elsewhere and ends the
search.
-/

namespace TestSelection.Repository

def entryName : Bytes := Text.bytes ".git"

/-- A text without the blanks at its end. -/
def trimmed (content : ByteArray) : Bytes :=
  (content.data.toList.reverse.dropWhile Options.isSpace).reverse

/-- The directory with the objects and references of a repository: the one that it names, or its
own. -/
def commonOf (files : FileSystem) (place : Location) : Option Location :=
  match contentFrom? files place (Text.bytes "commondir") with
  | none => some place
  | some content => (files.locateFrom place true (trimmed content)).toOption

/-- Whether a directory is a repository. -/
def isRepository (files : FileSystem) (place : Location) : Bool :=
  let node (place : Location) (name : String) : Option Node :=
    match files.walk true FileSystem.linkLimit place [Text.bytes name] with
    | .ok found => files.node? found
    | .error _ => none
  (match node place "HEAD" with
    | some (.file _ _) => true
    | _ => false) &&
    (commonOf files place).any fun common =>
      node common "objects" = some .directory && node common "refs" = some .directory

def shownPlace (place : Location) : String := Text.ofBytes (FileSystem.pathOf place)

def linkStart : Bytes := Text.bytes "gitdir:"

/-- The place that a path from a directory leads to, which has to be there. -/
def placeFrom (files : FileSystem) (start : Location) (path : Bytes) :
    Except RepositoryFault Location :=
  match files.locateFrom start true path with
  | .ok place => .ok place
  | .error fault =>
    let shown :=
      if FileSystem.isAbsolute path then path
      else FileSystem.pathOf start ++ [FileSystem.slash] ++ path
    .error (.unresolvedPath (Text.ofBytes shown) fault)

/-- The directory that the file `.git` in the directory `place` names. -/
def linked (files : FileSystem) (place : Location) (content : ByteArray) :
    Except RepositoryFault Location :=
  let text := trimmed content
  if text.length ≤ linkStart.length || !linkStart.isPrefixOf text then
    .error (.malformedLink (shownPlace (place ++ [entryName])))
  else
    placeFrom files place ((text.drop linkStart.length).dropWhile Options.isSpace)

/-- The places to look at from a place upwards, the root left out. -/
def levels (place : Location) : List Location :=
  (List.range place.length).map fun n => place.take (place.length - n)

/-- The first repository on the way through the given places. -/
def firstAt (files : FileSystem) (start : String) :
    List Location → Except RepositoryFault Location
  | [] => .error (.noRepository start)
  | place :: rest =>
    let entry :=
      match files.walk true FileSystem.linkLimit place [entryName] with
      | .ok found => (files.node? found).map fun node => (found, node)
      | .error _ => none
    let here : Except RepositoryFault Location :=
      if files.node? place = some .directory && isRepository files place then .ok place
      else firstAt files start rest
    match entry with
    | some (found, .directory) => if isRepository files found then .ok found else here
    | some (_, .file content _) =>
      (linked files place content).bind fun found =>
        if isRepository files found then .ok found else .error (.noRepository start)
    | _ => here

/-- The directory of the repository that a path lies in. -/
def discover (files : FileSystem) (start : String) : Except RepositoryFault Location :=
  if start.toList.contains '\x00' then .error .embeddedNul
  else
    match files.locate start with
    | .error fault => .error (.unresolvedPath start fault)
    | .ok place => firstAt files start (levels place)

/-- The settings of the repository in the given directory. -/
def readOptions (files : FileSystem) (home : Location) : Except RepositoryFault Options :=
  match files.walk true FileSystem.linkLimit home [Text.bytes "config"] with
  | .error _ => .ok []
  | .ok place =>
    match files.node? place with
    | some (.file content _) =>
      Options.read (shownPlace (home ++ [Text.bytes "config"])) content.data.toList
    | _ => .ok []

/-- Extensions of the form of a repository that change nothing here. -/
def knownExtensions : List String :=
  ["noop", "objectformat", "worktreeconfig", "preciousobjects"]

def extensionStart : String := "extensions."

/-- The first extension in the settings that is not known. -/
def unknownExtension? (options : Options) : Option String :=
  (options.map fun option => Text.ofBytes option.1).find? fun key =>
    key.startsWith extensionStart &&
      !knownExtensions.contains (key.drop extensionStart.length).toString

/-- Checks that the form of the repository is known. -/
def checkVersion (options : Options) : Except RepositoryFault Unit :=
  match options.text? "core.repositoryformatversion" with
  | none => .ok ()
  | some text =>
    match Options.integer? text, unknownExtension? options with
    | none, _ => .error (.noInteger (Text.ofBytes text))
    | some version, unknown =>
      if version < 0 then .error (.invalidVersion version)
      else if 1 < version then .error (.version version)
      else if version = 1 then unknown.elim (.ok ()) fun name => .error (.extension name)
      else .ok ()

/-- The directory of the working files, if there is one. It is named by the settings, or by the
`.git` in it where there are several for one repository. -/
def worktreeOf (files : FileSystem) (home : Location) (options : Options) :
    Except RepositoryFault (Option Location) :=
  (options.truth? "core.bare").bind fun bare =>
    match contentFrom? files home (Text.bytes "gitdir"), options.text? "core.worktree" with
    | some content, _ =>
      let names := (FileSystem.namesOf (trimmed content)).dropLast
      (placeFrom files home (FileSystem.pathOf names)).map some
    | none, path? =>
      if bare = some true then .ok none
      else path?.elim (.ok (some home.dropLast)) fun path => (placeFrom files home path).map some

/-- The repository whose directory is `home`. -/
def load (files : FileSystem) (home : Location) : Except RepositoryFault Repository :=
  let common := (commonOf files home).getD home
  (readOptions files common).bind fun options =>
  (checkVersion options).bind fun _ =>
  (worktreeOf files home options).map fun worktree => ⟨files, home, common, worktree, options⟩

/-- The repository that a path lies in. -/
def openAt (files : FileSystem) (start : String) : Except RepositoryFault Repository :=
  (discover files start).bind (load files)

end TestSelection.Repository
