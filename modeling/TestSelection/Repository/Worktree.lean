import TestSelection.Repository.Conversion

/-!
The working files of a repository. A directory that holds a repository of its own is left to it:
unless the index has files in there, it counts as one path with a final slash, and only if there is
anything in it that is not ignored.
-/

namespace TestSelection

/-- What stands in the directory of the working files, by paths from there, in ascending order. -/
structure Worktree where
  files : List (Bytes × Node)
  /-- Paths of directories that hold a repository of their own. -/
  nested : List Bytes
  rules : IgnoreRules
  /-- What is stored of the content of a file. -/
  stored : Bytes → ByteArray → ByteArray

namespace Worktree

def repositoryName : Bytes := Text.bytes ".git"

def joined (names : List Bytes) : Bytes := [FileSystem.slash].intercalate names

/-- The paths below a place and what stands there, what belongs to repositories left out. -/
def under (files : FileSystem) (root : Location) : List (Bytes × Node) :=
  files.nodes.filterMap fun (place, node) =>
    let names := place.drop root.length
    if root.isPrefixOf place && !names.isEmpty && !names.contains repositoryName then
      some (joined names, node)
    else none

/-- The directories below a place that hold a repository of their own. -/
def nestedUnder (files : FileSystem) (root : Location) : List Bytes :=
  files.nodes.filterMap fun (place, _) =>
    let names := place.drop root.length
    if root.isPrefixOf place && 1 < names.length && names.getLast? = some repositoryName &&
        !names.dropLast.contains repositoryName then
      some (joined names.dropLast)
    else none

def ignoreName : Bytes := Text.bytes ".gitignore"

def attributesName : Bytes := Text.bytes ".gitattributes"

/-- The files of a name in the directories below a place, by the path of the directory with a final
slash. -/
def contentsUnder (files : FileSystem) (root : Location) (name : Bytes) : List (Bytes × Bytes) :=
  files.nodes.filterMap fun (place, _) =>
    let names := place.drop root.length
    if root.isPrefixOf place && names.getLast? = some name then
      (Repository.contentFrom? files place.dropLast name).map fun content =>
        (names.dropLast.flatMap fun name => name ++ [FileSystem.slash], content.data.toList)
    else none

/-- The rules in the files of the directories below a place. -/
def rulesUnder (files : FileSystem) (root : Location) : List (Bytes × List IgnoreRule) :=
  (contentsUnder files root ignoreName).map fun (directory, content) =>
    (directory, IgnoreRule.read directory content)

/-- Whether a path is that of something the index might hold. -/
def isLeaf : Node → Bool
  | .directory => false
  | .file _ _ | .link _ => true

/-- The entry that a working file would have in the index, where `stored` is what is stored of its
content. -/
def entryOf (stored : ByteArray → ByteArray) : Node → Option FileEntry
  | .file content executable =>
    some ⟨if executable then .executable else .regular, StoredObject.blobId (stored content)⟩
  | .link target => some ⟨.link, StoredObject.blobId target.toByteArray⟩
  | .directory => none

/-- Whether some of the paths lie in a directory. -/
def holdsAny (paths : List Bytes) (directory : Bytes) : Bool :=
  paths.any fun path => Index.isBelow path directory

/-- The directories around a path, the nearest first. -/
def around (path : Bytes) : List Bytes :=
  (IgnoreRules.directoriesOf path).dropLast.map List.dropLast

/-- Whether the way to a path is open: no directory on it is ignored or has a repository of its own,
unless some of the paths `tracked` lie in there. -/
def isOpen (tree : Worktree) (tracked : List Bytes) (path : Bytes) : Bool :=
  (around path).all fun directory =>
    !tree.rules.isIgnored directory true && !tree.nested.contains directory ||
      holdsAny tracked directory

/-- Whether a file that is not tracked is new: it is not ignored, and the way to it is open. -/
def isNew (tree : Worktree) (tracked : List Bytes) (path : Bytes) : Bool :=
  !tree.rules.isIgnored path false && tree.isOpen tracked path

/-- Whether a file is neither ignored nor lies in a directory that is. -/
def isPlain (tree : Worktree) (path : Bytes) : Bool :=
  !tree.rules.isIgnored path false &&
    (around path).all fun directory => !tree.rules.isIgnored directory true

/-- The directories with a repository of their own that are new, each with a final slash. -/
def newRepositories (tree : Worktree) (tracked : List Bytes) : List Bytes :=
  (tree.nested.filter fun directory =>
    !tracked.contains directory && !holdsAny tracked directory &&
      !tree.rules.isIgnored directory true &&
      tree.isOpen tracked directory &&
      tree.files.any fun (path, node) =>
        isLeaf node && Index.isBelow path directory && tree.isPlain path).map
    (· ++ [FileSystem.slash])

end Worktree

namespace Repository

/-- The content of a file that the settings name, which a path from `root` may lead to. -/
def namedContent? (repository : Repository) (root : Location) (key : String) : Option ByteArray :=
  (repository.options.text? key).bind (contentFrom? repository.files root)

/-- The rules for the whole repository: its own, and those of a file that its settings name. -/
def generalRules (repository : Repository) (root : Location) : List (List IgnoreRule) :=
  let own := repository.sharedAt? (Text.bytes "info/exclude")
  let other := repository.namedContent? root "core.excludesfile"
  [own, other].filterMap fun content =>
    content.map fun content => IgnoreRule.read [] content.data.toList

/-- The files with attributes that the index has, by the path of their directory with a final
slash. -/
def indexedAttributes (repository : Repository) (index : Index) : List (Bytes × Bytes) :=
  index.staged.filterMap fun (path, entry) =>
    let name := (path.reverse.takeWhile (· ≠ FileSystem.slash)).reverse
    if name = Worktree.attributesName then
      (repository.stored entry.id).toOption.map fun (_, content) =>
        (path.take (path.length - name.length), content.data.toList)
    else none

/-- What is said of the attributes of files. In a directory, what stands there comes before what the
index has. -/
def attributeRules (repository : Repository) (root : Location) (index : Index) : AttributeRules :=
  let bytes (content : Option ByteArray) : Bytes :=
    (content.map fun content => content.data.toList).getD []
  .read (bytes (repository.sharedAt? (Text.bytes "info/attributes")))
    (bytes (repository.namedContent? root "core.attributesfile"))
    (Worktree.contentsUnder repository.files root Worktree.attributesName ++
      repository.indexedAttributes index)

/-- The working files in the directory `root`. -/
def worktreeAt (repository : Repository) (root : Location) (index : Index) : Worktree :=
  { files := ordered (Worktree.under repository.files root)
    nested := Worktree.nestedUnder repository.files root
    rules := ⟨Worktree.rulesUnder repository.files root, repository.generalRules root⟩
    stored := repository.storedContent (repository.attributeRules root index) index }

end Repository

end TestSelection
