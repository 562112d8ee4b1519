import TestSelection.FileSystem.Fault
import TestSelection.Text.Utf8

/-!
A file system as one process sees it: what stands at each place, and the directory that relative
paths start from. A place is named by the names on the way to it from the root. A walk along a path
goes through directories, follows links, and leaves a directory by two dots; a final slash asks for
a directory. At most forty links are followed.
-/

namespace TestSelection

instance decEqContent : DecidableEq ByteArray := ByteArray.instDecidableEq

inductive Node
  | file (content : ByteArray) (executable : Bool)
  | link (target : Bytes)
  | directory
  deriving DecidableEq

abbrev Location := List Bytes

structure FileSystem where
  nodes : List (Location × Node) := []
  here : Location := []
  /-- Whether it is known of a file if it is executable. -/
  marksExecutables : Bool := true
  /-- The files whose content is not given out, with the reason. -/
  withheld : List (Location × ReadFault) := []

namespace FileSystem

def slash : UInt8 := 0x2f

def dot : UInt8 := 0x2e

/-- What stands at a place. The root is always there. -/
def node? (files : FileSystem) (place : Location) : Option Node :=
  if place = [] then some .directory else files.nodes.lookup place

/-- The names that a walk along a path goes through. A final slash stands for one more dot. -/
def namesOf (path : Bytes) : List Bytes :=
  let names := (path.splitOn slash).filter fun name => !name.isEmpty
  if path.getLast? = some slash && !names.isEmpty then names ++ [[dot]] else names

def isAbsolute (path : Bytes) : Bool := path.head? = some slash

def linkLimit : Nat := 40

def nameLimit : Nat := 255

def pathLimit : Nat := 4096

/-- The place that a walk along `names` from `place` ends at, when at most `links` links may be
followed. A link at the end is followed if `throughLast`. -/
def walk (files : FileSystem) (throughLast : Bool) (links : Nat) (place : Location)
    (names : List Bytes) : Except ReadFault Location :=
  match names with
  | [] => .ok place
  | name :: rest =>
    if files.node? place ≠ some .directory then .error .notDirectory
    else if name = [dot] then walk files throughLast links place rest
    else if name = [dot, dot] then walk files throughLast links place.dropLast rest
    else if nameLimit < name.length then .error .nameTooLong
    else
      match files.node? (place ++ [name]) with
      | none => .error .notFound
      | some (.link target) =>
        if rest.isEmpty && !throughLast then .ok (place ++ [name])
        else
          match links with
          | 0 => .error .linkLoop
          | links + 1 =>
            walk files throughLast links (if isAbsolute target then [] else place)
              (namesOf target ++ rest)
      | some _ => walk files throughLast links (place ++ [name]) rest
  termination_by (links, names.length)

/-- The place that a path, read from the directory `start`, leads to. -/
def locateFrom (files : FileSystem) (start : Location) (throughLast : Bool) (path : Bytes) :
    Except ReadFault Location :=
  if path.contains 0 then .error .invalidName
  else if path.isEmpty then .error .notFound
  else if pathLimit ≤ path.length then .error .nameTooLong
  else walk files throughLast linkLimit (if isAbsolute path then [] else start) (namesOf path)

/-- The place that a path leads to when all links are followed. -/
def locate (files : FileSystem) (path : String) : Except ReadFault Location :=
  files.locateFrom files.here true (Text.bytes path)

/-- What a path leads to. -/
def find? (files : FileSystem) (path : String) : Option Node :=
  match files.locate path with
  | .ok place => files.node? place
  | .error _ => none

def isFile (files : FileSystem) (path : String) : Bool :=
  match files.find? path with
  | some (.file _ _) => true
  | _ => false

def isPresent (files : FileSystem) (path : String) : Bool := (files.find? path).isSome

/-- What a file holds. -/
def read (files : FileSystem) (path : String) : Except ReadFault ByteArray :=
  match files.locate path with
  | .error fault => .error fault
  | .ok place =>
    match files.node? place with
    | some (.file content _) => (files.withheld.lookup place).elim (.ok content) .error
    | some .directory => .error .isDirectory
    | _ => .error .notFound

/-- The text that a file holds. -/
def readText (files : FileSystem) (path : String) : Except ReadFault String :=
  match files.read path with
  | .error fault => .error fault
  | .ok content =>
    match Text.ofUtf8? content with
    | none => .error .invalidText
    | some text => .ok text

/-- The names in a directory with what stands there. -/
def children (files : FileSystem) (place : Location) : List (Bytes × Node) :=
  files.nodes.filterMap fun (other, node) =>
    match other.getLast? with
    | some name => if other.dropLast = place then some (name, node) else none
    | none => none

/-- The path of a place, as bytes. -/
def pathOf (place : Location) : Bytes :=
  if place.isEmpty then [slash] else place.flatMap fun name => slash :: name

end FileSystem

end TestSelection
