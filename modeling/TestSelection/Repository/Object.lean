import TestSelection.Repository.Fault

/-!
Stored objects: the content of a file, a directory of named entries, a commit with its directory and
its parents, and a tag that gives a name to another object. An object is stored as bytes, and its
name is the digest of them after a header with its kind and size.
-/

namespace TestSelection

/-- What an entry of a directory is. -/
inductive FileMode
  | regular
  | executable
  | link
  | directory
  | submodule
  deriving Repr, DecidableEq

namespace FileMode

def number : FileMode → Nat
  | regular => 0o100644
  | executable => 0o100755
  | link => 0o120000
  | directory => 0o040000
  | submodule => 0o160000

/-- What a mode is, permissions left aside. -/
def kind (mode : FileMode) : Nat := mode.number / 0o10000

/-- Whether an entry with this mode names content of its own. -/
def isBlob : FileMode → Bool
  | regular | executable | link => true
  | directory | submodule => false

/-- Whether an entry with this mode is a file and no link. -/
def isPlain : FileMode → Bool
  | regular | executable => true
  | _ => false

/-- The mode that a number stands for, permissions other than that to execute left aside. -/
def ofNumber (n : Nat) : FileMode :=
  match n / 0o10000 with
  | 0o04 => directory
  | 0o12 => link
  | 0o16 => submodule
  | _ => if n / 0o100 % 2 = 1 then executable else regular

end FileMode

/-- A file as a directory or an index refers to it. -/
structure FileEntry where
  mode : FileMode
  id : ObjectId
  deriving Repr, DecidableEq

abbrev TreeEntry := Bytes × FileEntry

structure Commit where
  tree : ObjectId
  parents : List ObjectId
  time : Int
  message : Bytes
  deriving Repr, DecidableEq

structure Tag where
  target : ObjectId
  kind : ObjectKind
  name : Bytes
  deriving Repr, DecidableEq

inductive StoredObject
  | blob (content : ByteArray)
  | tree (entries : List TreeEntry)
  | commit (commit : Commit)
  | tag (tag : Tag)

namespace StoredObject

def kind : StoredObject → ObjectKind
  | .blob _ => .blob
  | .tree _ => .tree
  | .commit _ => .commit
  | .tag _ => .tag

def space : UInt8 := 0x20

def newline : UInt8 := 0x0a

/-- What stands before and after the first `mark`. -/
def cut (mark : UInt8) (bytes : Bytes) : Option (Bytes × Bytes) :=
  match bytes.dropWhile (· ≠ mark) with
  | [] => none
  | _ :: rest => some (bytes.takeWhile (· ≠ mark), rest)

/-- The number that digits write in the given base, which is ten at most. -/
def digits? (base : Nat) (digits : Bytes) : Option Nat :=
  if digits.isEmpty then none
  else
    digits.foldlM (fun n b =>
      if 0x30 ≤ b && b.toNat < 0x30 + base then some (base * n + (b.toNat - 0x30)) else none) 0

def octal? : Bytes → Option Nat := digits? 8

def decimal? : Bytes → Option Nat := digits? 10

/-- The entries of a directory; every entry takes a byte at least. -/
def readEntries : (fuel : Nat) → Bytes → Option (List TreeEntry)
  | _, [] => some []
  | 0, _ => none
  | fuel + 1, bytes =>
    (cut space bytes).bind fun (digits, rest) =>
    (octal? digits).bind fun mode =>
    (cut 0 rest).bind fun (name, rest) =>
      if rest.length < ObjectId.size then none
      else
        (readEntries fuel (rest.drop ObjectId.size)).map fun entries =>
          (name, ⟨.ofNumber mode, ⟨rest.take ObjectId.size⟩⟩) :: entries

def writeEntries (entries : List TreeEntry) : Bytes :=
  entries.flatMap fun (name, entry) =>
    Text.bytes (String.ofList (Nat.toDigits 8 entry.mode.number)) ++ [space] ++ name ++ [0] ++
      entry.id.bytes

/-- The lines before the first empty one, each with its first word apart, and what follows. -/
def readHeader : (fuel : Nat) → Bytes → List (Bytes × Bytes) × Bytes
  | 0, rest => ([], rest)
  | fuel + 1, bytes =>
    match cut newline bytes with
    | none => ([], [])
    | some ([], rest) => ([], rest)
    | some (line, rest) =>
      let (lines, message) := readHeader fuel rest
      ((cut space line).getD (line, []) :: lines, message)

def fieldOf (header : List (Bytes × Bytes)) (name : String) : Option Bytes :=
  header.lookup (Text.bytes name)

/-- The object named behind a word in the line that bytes begin with, and what follows the line. -/
def namedAfter? (word : String) (bytes : Bytes) : Option (ObjectId × Bytes) :=
  let start := Text.bytes word ++ [space]
  let rest := bytes.drop start.length
  if start.isPrefixOf bytes && (rest.drop ObjectId.hexSize).head? = some newline then
    (ObjectId.ofHex? (rest.take ObjectId.hexSize)).map fun id =>
      (id, rest.drop (ObjectId.hexSize + 1))
  else none

/-- The objects named in the lines behind a word, `fuel` lines at most, and what follows them. -/
def allNamedAfter (word : String) : (fuel : Nat) → Bytes → List ObjectId × Bytes
  | 0, bytes => ([], bytes)
  | fuel + 1, bytes =>
    match namedAfter? word bytes with
    | none => ([], bytes)
    | some (id, rest) =>
      let (ids, rest) := allNamedAfter word fuel rest
      (id :: ids, rest)

/-- The whole number that a text begins with, blanks left aside. -/
def leadingNumber? (text : Bytes) : Option Int :=
  let text := text.dropWhile (· = space)
  let digits (text : Bytes) : Option Nat :=
    decimal? (text.takeWhile fun b => 0x30 ≤ b && b ≤ 0x39)
  match text with
  | 0x2d :: rest => (digits rest).map fun n => -(n : Int)
  | 0x2b :: rest => (digits rest).map Int.ofNat
  | rest => (digits rest).map Int.ofNat

/-- The time of a signature, which is behind an address between angles. There need not be one. -/
def timeOf (signature : Bytes) : Except SignatureFault Int :=
  let opening? := signature.reverse.idxOf? 0x3c
  let closing? := signature.reverse.idxOf? 0x3e
  match opening?, closing? with
  | some opening, some closing =>
    if opening ≤ closing then .error .address
    else if closing ≤ 1 then .ok 0
    else
      match leadingNumber? (signature.drop (signature.length - closing + 1)) with
      | some time => .ok time
      | none => .error .time
  | _, _ => .error .address

/-- The time in the line that bytes begin with, which is that of whoever is named by the word
before, and what follows the line. -/
def signedAfter (word : String) (bytes : Bytes) : Except SignatureFault (Int × Bytes) :=
  let start := Text.bytes word ++ [space]
  match cut newline bytes with
  | none => .error .unfinished
  | some (line, rest) =>
    if line.length ≤ start.length || !start.isPrefixOf line then .error .word
    else (timeOf (line.drop start.length)).map fun time => (time, rest)

/-- Passes over further lines of who is named by a word. -/
def skipSigned (word : String) : (fuel : Nat) → Bytes → Except SignatureFault Bytes
  | 0, bytes => .ok bytes
  | fuel + 1, bytes =>
    if (Text.bytes word ++ [space]).isPrefixOf bytes then
      (signedAfter word bytes).bind fun (_, rest) => skipSigned word fuel rest
    else .ok bytes

/-- Reads a commit: its directory, its parents, who wrote it and who committed it. -/
def readCommit (bytes : Bytes) : Except RepositoryFault Commit :=
  match namedAfter? "tree" bytes with
  | none => .error (.objectCorrupt "failed to parse bad commit object")
  | some (directory, rest) =>
    let (parents, rest) := allNamedAfter "parent" rest.length rest
    let signed : Except SignatureFault (Int × Bytes) :=
      (signedAfter "author" rest).bind fun (_, rest) =>
      (skipSigned "author" rest.length rest).bind fun rest => signedAfter "committer" rest
    (signed.mapError .signature).map fun (time, rest) =>
      ⟨directory, parents, time, (readHeader rest.length rest).2⟩

def readTag (bytes : Bytes) : Option Tag :=
  let (header, _) := readHeader bytes.length bytes
  ((fieldOf header "object").bind ObjectId.ofHex?).bind fun target =>
  ((fieldOf header "type").bind fun word => ObjectKind.ofWord? (Text.ofBytes word)).map fun kind =>
    ⟨target, kind, (fieldOf header "tag").getD []⟩

/-- The object of the given kind that bytes describe. -/
def read (kind : ObjectKind) (content : ByteArray) : Except RepositoryFault StoredObject :=
  let bytes := content.data.toList
  let found {α : Type} : Option α → Except RepositoryFault α
    | some found => .ok found
    | none => .error (.objectCorrupt s!"failed to parse bad {kind.word} object")
  match kind with
  | .blob => .ok (blob content)
  | .tree => (found (readEntries bytes.length bytes)).map tree
  | .commit => (readCommit bytes).map commit
  | .tag => (found (readTag bytes)).map tag

/-- The header that stands before the content of an object. -/
def header (kind : ObjectKind) (size : Nat) : Bytes := Text.bytes s!"{kind.word} {size}" ++ [0]

/-- The bytes of an object with their header. -/
def encodedAs (kind : ObjectKind) (content : ByteArray) : ByteArray :=
  (header kind content.size).toByteArray ++ content

/-- The name of what is stored with the given kind and content. -/
def nameOf (kind : ObjectKind) (content : ByteArray) : ObjectId :=
  ⟨Digest.digest (encodedAs kind content)⟩

def blobId (content : ByteArray) : ObjectId := nameOf .blob content

def treeId (entries : List TreeEntry) : ObjectId := nameOf .tree (writeEntries entries).toByteArray

/-- Splits bytes with their header into kind and content. -/
def ofEncoded? (bytes : ByteArray) : Option (ObjectKind × ByteArray) :=
  let start := (bytes.extract 0 32).data.toList
  (cut 0 start).bind fun (header, _) =>
  (cut space header).bind fun (word, digits) =>
  (ObjectKind.ofWord? (Text.ofBytes word)).bind fun kind =>
  (decimal? digits).bind fun size =>
    let content := bytes.extract (header.length + 1) bytes.size
    if content.size = size then some (kind, content) else none

end StoredObject

end TestSelection
