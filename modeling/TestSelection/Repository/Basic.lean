import TestSelection.FileSystem.Basic
import TestSelection.Repository.Options
import TestSelection.Repository.Pack

/-!
A repository in a file system: the directory that is its own, the one that it shares its objects,
references and settings with, and the directory with the working files, which a bare repository has
not. Objects are files of their own, or lie in packs, in the repository or where it says that more
of them are; the directory without entries is known without being stored.
-/

namespace TestSelection

structure Repository where
  files : FileSystem
  home : Location
  /-- The directory that working directories of one repository share. -/
  common : Location
  worktree : Option Location
  options : Options

/-- An object together with its name. -/
structure NamedObject where
  id : ObjectId
  object : StoredObject

namespace Repository

/-- The content of the file that a path from the directory `place` leads to. -/
def contentFrom? (files : FileSystem) (place : Location) (path : Bytes) : Option ByteArray :=
  match files.locateFrom place true path with
  | .error _ => none
  | .ok found =>
    match files.node? found with
    | some (.file content _) => some content
    | _ => none

/-- The content of a file in the repository's own directory. -/
def contentAt? (repository : Repository) (path : Bytes) : Option ByteArray :=
  contentFrom? repository.files repository.home path

/-- The content of a file in the shared directory. -/
def sharedAt? (repository : Repository) (path : Bytes) : Option ByteArray :=
  contentFrom? repository.files repository.common path

/-- The names in the directory that a path from `place` leads to, with what stands there. -/
def childrenFrom (files : FileSystem) (place : Location) (path : Bytes) : List (Bytes × Node) :=
  match files.locateFrom place true path with
  | .ok found => files.children found
  | .error _ => []

/-- The path of the file of an object from the directory of objects. -/
def objectPath (id : ObjectId) : Bytes :=
  let digits := (ObjectId.hexDigits id.bytes).map fun c => c.toString
  Text.bytes (String.join (digits.take 2 ++ "/" :: digits.drop 2))

/-- The lines of a list of directories, comments left out. -/
def alternateLines (content : Bytes) : List Bytes :=
  (content.splitOnP fun b => b = 0x0a || b = 0x0d).filter fun line =>
    !line.isEmpty && line.head? ≠ some 0x23

/-- The directories that the directory of objects `place` names for more objects. The first one may
name them by paths from there, which begin with a dot. -/
def alternates (files : FileSystem) (isFirst : Bool) (place : Location) : List Location :=
  let content := contentFrom? files place (Text.bytes "info/alternates")
  let lines := alternateLines ((content.map fun content => content.data.toList).getD [])
  lines.filterMap fun line =>
    let isInside := isFirst && line.head? = some FileSystem.dot
    (files.locateFrom (if isInside then place else files.here) true line).toOption

/-- A directory of objects, and those that it leads to in `depth` steps at most. -/
def objectPlacesFrom (files : FileSystem) : (depth : Nat) → Bool → Location → List Location
  | 0, _, place => [place]
  | depth + 1, isFirst, place =>
    place :: (alternates files isFirst place).flatMap (objectPlacesFrom files depth false)

def alternateDepth : Nat := 6

/-- The directories that objects lie in. -/
def objectPlaces (repository : Repository) : List Location :=
  match repository.files.locateFrom repository.common true (Text.bytes "objects") with
  | .ok place => objectPlacesFrom repository.files alternateDepth true place
  | .error _ => []

/-- The packs in a directory of objects. -/
def packsIn (files : FileSystem) (place : Location) : List Pack :=
  (childrenFrom files place (Text.bytes "pack")).filterMap fun (name, node) =>
    let shown := Text.ofBytes name
    match node with
    | .file index _ =>
      if shown.endsWith ".idx" then
        (contentFrom? files place (Text.bytes s!"pack/{shown.dropEnd 4}.pack")).map
          fun data => ⟨index, data⟩
      else none
    | _ => none

def packs (repository : Repository) : List Pack :=
  repository.objectPlaces.flatMap (packsIn repository.files)

def emptyTree : ObjectId := StoredObject.treeId []

/-- The object of the given name in the packs; changes between packs have at most `fuel` links. -/
def packed? (packs : List Pack) : (fuel : Nat) → ObjectId → Option (ObjectKind × ByteArray)
  | 0, _ => none
  | fuel + 1, id =>
    packs.findSome? fun pack =>
      (pack.offset? id).bind fun offset =>
        pack.objectAt (packed? packs fuel) (pack.count + 1) offset

/-- What is stored under the given name in a directory of objects, in a pack or in a file. -/
def storedIn? (files : FileSystem) (id : ObjectId) (place : Location) :
    Option (Except RepositoryFault (ObjectKind × ByteArray)) :=
  let packs := packsIn files place
  match packed? packs (packs.length + 1) id with
  | some found => some (.ok found)
  | none =>
    (contentFrom? files place (objectPath id)).map fun content =>
      match (Compression.expand? content).bind StoredObject.ofEncoded? with
      | some found => .ok found
      | none => .error (.objectCorrupt "failed to parse loose object: invalid header")

/-- The kind and content of the object with the given name. What is stored under a name that is not
its own is no object. -/
def stored (repository : Repository) (id : ObjectId) :
    Except RepositoryFault (ObjectKind × ByteArray) :=
  if id = .zero then .error .nullObject
  else if id = emptyTree then .ok (.tree, ByteArray.empty)
  else
    match repository.objectPlaces.findSome? (storedIn? repository.files id) with
    | none => .error (.objectMissing id)
    | some found =>
      found.bind fun (kind, content) =>
        let name := StoredObject.nameOf kind content
        if name = id then .ok (kind, content) else .error (.objectMismatch id name)

def object (repository : Repository) (id : ObjectId) : Except RepositoryFault NamedObject :=
  (repository.stored id).bind fun (kind, content) =>
    (StoredObject.read kind content).map fun object => ⟨id, object⟩

/-- The names of stored objects whose digits begin with `digits`. -/
def namesFrom (repository : Repository) (digits : List Char) : List ObjectId :=
  let start := Text.bytes (String.ofList (digits.take 2))
  let single := repository.objectPlaces.flatMap fun place =>
    (childrenFrom repository.files place start).filterMap fun (name, _) =>
      ObjectId.ofHex? (start ++ name)
  let first := ((ObjectId.pairs? start).bind fun bytes => bytes.head?).getD 0
  let inPacks := (repository.packs.filter Pack.isReadable).flatMap fun pack => pack.names first
  ((single ++ inPacks).filter fun id => digits.isPrefixOf (ObjectId.hexDigits id.bytes)).eraseDups

def shortest : Nat := 4

/-- The object whose name begins with `digits`; `none` if there is none. -/
def objectFrom (repository : Repository) (digits : List Char) :
    Except RepositoryFault (Option NamedObject) :=
  if digits.length < shortest then .error .prefixTooShort
  else if digits.length = ObjectId.hexSize then
    match ObjectId.ofHex? (Text.bytes (String.ofList digits)) with
    | none => .ok none
    | some id =>
      match repository.object id with
      | .ok found => .ok (some found)
      | .error fault => if fault.isMissing then .ok none else .error fault
  else
    match repository.namesFrom digits with
    | [] => .ok none
    | [id] => (repository.object id).map some
    | _ => .error .prefixAmbiguous

def commitAt (repository : Repository) (id : ObjectId) : Except RepositoryFault Commit :=
  (repository.object id).bind fun found =>
    match found.object with
    | .commit commit => .ok commit
    | _ => .error .objectKind

def treeAt (repository : Repository) (id : ObjectId) :
    Except RepositoryFault (List TreeEntry) :=
  (repository.object id).bind fun found =>
    match found.object with
    | .tree entries => .ok entries
    | _ => .error .objectKind

/-- The object that another one stands for: the directory of a commit, the target of a tag. -/
def dereference (repository : Repository) (found : NamedObject) :
    Except RepositoryFault NamedObject :=
  match found.object with
  | .commit commit => repository.object commit.tree
  | .tag tag => repository.object tag.target
  | _ => .error (.unstated .unpeelable)

/-- Goes from object to object until one has the given kind, `fuel` steps at most. -/
def peelStep (repository : Repository) (kind : ObjectKind) :
    (fuel : Nat) → NamedObject → Except RepositoryFault NamedObject
  | 0, _ => .error .depth
  | fuel + 1, found =>
    if found.object.kind = kind then .ok found
    else (repository.dereference found).bind (peelStep repository kind fuel)

def peelLimit : Nat := 1000

/-- The object of the given kind that `found` stands for. Files and directories stand for
themselves alone, and a commit for no tag and no file. -/
def peel (repository : Repository) (kind : ObjectKind) (found : NamedObject) :
    Except RepositoryFault NamedObject :=
  let refused (fault : FaultKind) : Except RepositoryFault NamedObject :=
    .error (.unpeelable found.id (some kind) fault)
  if found.object.kind = kind then .ok found
  else
    match found.object.kind, kind with
    | .commit, .tree | .tag, _ =>
      match repository.peelStep kind peelLimit found with
      | .ok peeled => .ok peeled
      | .error fault => refused fault.kind
    | _, _ => refused .invalid

/-- The entries of the directory that an object stands for. -/
def peelTree (repository : Repository) (found : NamedObject) :
    Except RepositoryFault (List TreeEntry) :=
  (repository.peel .tree found).bind fun peeled =>
    match peeled.object with
    | .tree entries => .ok entries
    | _ => .error .objectKind

end Repository

end TestSelection
