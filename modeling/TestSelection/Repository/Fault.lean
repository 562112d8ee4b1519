import TestSelection.FileSystem.Fault
import TestSelection.Repository.ObjectId

/-!
What can go wrong in a repository. A fault has a message, and a kind that tells apart what is just
not there from what is damaged: a missing branch, for instance, is an answer and no failure to
somebody who asks whether there is one.
-/

namespace TestSelection

inductive ObjectKind
  | commit
  | tree
  | blob
  | tag
  deriving Repr, DecidableEq

namespace ObjectKind

def word : ObjectKind → String
  | commit => "commit"
  | tree => "tree"
  | blob => "blob"
  | tag => "tag"

def number : ObjectKind → Nat
  | commit => 1
  | tree => 2
  | blob => 3
  | tag => 4

def ofWord? : String → Option ObjectKind
  | "commit" => some commit
  | "tree" => some tree
  | "blob" => some blob
  | "tag" => some tag
  | _ => none

end ObjectKind

inductive FaultKind
  | missing
  | invalid
  | ambiguous
  | unpeelable
  | other
  deriving Repr, DecidableEq

/-- What is wrong in a line of the repository's settings. -/
inductive LineFault
  | noClosingBracket
  | headerCharacter (column : Nat)
  | headerEnd (column : Nat)
  | noQuote
  | noClosingQuote
  | unfinishedHeader (column : Nat)
  | textAfterQuote (column : Nat)
  | key
  deriving Repr, DecidableEq

namespace LineFault

def description : LineFault → String
  | noClosingBracket => "missing ']' in section header"
  | headerCharacter _ => "unexpected character in header"
  | headerEnd _ => "unexpected end of file"
  | noQuote => "missing quotation marks in section header"
  | noClosingQuote => "missing closing quotation mark in section header"
  | unfinishedHeader _ => "unexpected end-of-line in section header"
  | textAfterQuote _ => "unexpected text after closing quotes"
  | key => "invalid configuration key"

def column : LineFault → Nat
  | headerCharacter column | headerEnd column | unfinishedHeader column | textAfterQuote column =>
    column
  | _ => 0

end LineFault

/-- What is wrong with the line that says who made a commit. -/
inductive SignatureFault
  | unfinished
  | word
  | address
  | time
  deriving Repr, DecidableEq

def SignatureFault.description : SignatureFault → String
  | unfinished => "no newline given"
  | word => "expected prefix doesn't match actual"
  | address => "malformed e-mail"
  | time => "invalid Unix timestamp"

inductive RepositoryFault
  | unresolvedPath (path : String) (fault : ReadFault)
  | noRepository (start : String)
  | malformedLink (path : String)
  | embeddedNul
  | settingsLine (fault : LineFault) (path : String) (line : Nat)
  | settingsEscape (rest : String)
  | noTruthValue (value : String)
  | noInteger (value : String)
  | version (number : Int)
  | invalidVersion (number : Int)
  | extension (name : String)
  | settingMissing (key : String)
  | bareStatus
  | index (what : String)
  | indexPart (mark : String)
  | referenceName (name : String)
  | referenceMissing (name : String)
  | referenceCorrupt (name : String)
  | linkCorrupt
  | packedReferencesCorrupt
  | referenceDepth (limit : Nat)
  | referenceUnresolved (name : String) (kind : FaultKind)
  | referenceUnpeeled (name : String) (kind : FaultKind)
  | noReferenceFor (name : String)
  | noSuchName (name : String)
  | notTracking (name : String)
  | remoteName (name : String)
  | remoteMissing (name : String)
  | refspec (text : String)
  | noRefspec
  | nullObject
  | objectMissing (id : ObjectId)
  | prefixTooShort
  | prefixAmbiguous
  | objectCorrupt (what : String)
  | objectMismatch (expected found : ObjectId)
  | signature (fault : SignatureFault)
  | objectKind
  | unpeelable (id : ObjectId) (kind : Option ObjectKind) (fault : FaultKind)
  | noParent (number : Nat)
  | emptyTreePath
  | noTreeEntry (name : String)
  | noSubtree (name : String)
  | revisionForm
  | revision (text : String)
  | revisionMissing (text : String)
  | indexRevision
  | emptyPattern
  | shortHistory (name : String) (entries asked : Nat)
  | unstated (kind : FaultKind)
  | depth
  deriving Repr, DecidableEq

namespace RepositoryFault

def kind : RepositoryFault → FaultKind
  | unresolvedPath _ .notFound | noRepository _ | settingMissing _ | referenceMissing _
  | noSuchName _ | notTracking _ | remoteMissing _ | noRefspec | nullObject | objectMissing _
  | noParent _ | emptyTreePath | noTreeEntry _ | noSubtree _ | revisionMissing _
  | shortHistory _ _ _ => .missing
  | referenceName _ | noReferenceFor _ | remoteName _ | revisionForm | revision _
  | emptyPattern | signature _ => .invalid
  | prefixTooShort | prefixAmbiguous => .ambiguous
  | referenceUnresolved _ kind | referenceUnpeeled _ kind | unpeelable _ _ kind
  | unstated kind => kind
  | _ => .other

def isMissing (fault : RepositoryFault) : Bool := fault.kind = .missing

/-- The place of a fault in a settings file. -/
def place (path : String) (line column : Nat) : String :=
  if column = 0 then s!" (in {path}:{line})" else s!" (in {path}:{line}, column {column})"

def message : RepositoryFault → String
  | unresolvedPath path fault => s!"failed to resolve path '{path}': {fault.description}"
  | noRepository start => s!"could not find repository at '{start}'"
  | malformedLink path => s!"the \x60.git\x60 file at '{path}' is malformed"
  | embeddedNul => "data contained a nul byte that could not be represented as a string"
  | settingsLine fault path line =>
    s!"failed to parse config file: {fault.description}" ++ place path line fault.column
  | settingsEscape rest => s!"invalid escape at {rest}"
  | noTruthValue value => s!"failed to parse '{value}' as a boolean value"
  | noInteger value => s!"failed to parse '{value}' as a 32-bit integer"
  | version number =>
    s!"unsupported repository version {number}; only versions up to 1 are supported"
  | invalidVersion number => s!"invalid repository version {number}"
  | extension name => s!"unsupported extension name {name}"
  | settingMissing key => s!"config value '{key}' was not found"
  | bareStatus => "cannot status. This operation is not allowed against bare repositories."
  | index what => s!"invalid data in index - {what}"
  | indexPart mark => s!"unsupported mandatory extension: '{mark}'"
  | referenceName name => s!"the given reference name '{name}' is not valid"
  | referenceMissing name => s!"reference '{name}' not found"
  | referenceCorrupt name => s!"corrupted loose reference file: {name}"
  | linkCorrupt => "corrupted loose reference file"
  | packedReferencesCorrupt => "corrupted packed references file"
  | referenceDepth limit => s!"cannot resolve reference (>{limit} levels deep)"
  | referenceUnresolved name _ =>
    s!"the reference '{name}' cannot be peeled - Cannot resolve reference"
  | referenceUnpeeled name _ =>
    s!"the reference '{name}' cannot be peeled - Cannot retrieve reference target"
  | noReferenceFor name => s!"could not use '{name}' as valid reference name"
  | noSuchName name => s!"no reference found for shorthand '{name}'"
  | notTracking name => s!"branch '{name}' does not have an upstream"
  | remoteName name => s!"'{name}' is not a valid remote name."
  | remoteMissing name => s!"remote '{name}' does not exist"
  | refspec text => s!"'{text}' is not a valid refspec."
  | noRefspec => "no error"
  | nullObject => "cannot read object: null OID cannot exist"
  | objectMissing id => s!"object not found - no match for id ({id.hex})"
  | prefixTooShort => "ambiguous lookup - OID prefix is too short"
  | prefixAmbiguous => "ambiguous OID prefix - multiple matches in loose objects"
  | objectCorrupt what => what
  | objectMismatch expected found =>
    s!"object hash mismatch - expected {expected.hex} but got {found.hex}"
  | signature fault => s!"failed to parse signature - {fault.description}"
  | objectKind => "the requested type does not match the type in the ODB"
  | unpeelable id kind _ =>
    let (word, number) := (kind.map fun kind => (kind.word, (kind.number : Int))).getD ("", -2)
    s!"the git_object of id '{id.hex}' can not be successfully peeled into a {word} " ++
      s!"(git_object_t={number})."
  | noParent number => s!"parent {number} does not exist"
  | emptyTreePath => "invalid tree path given"
  | noTreeEntry name => s!"the path '{name}' does not exist in the given tree"
  | noSubtree name => s!"the path '{name}' exists but is not a tree"
  | revisionForm => "failed to parse revision specifier"
  | revision text => s!"failed to parse revision specifier - Invalid pattern '{text}'"
  | revisionMissing text => s!"revspec '{text}' not found"
  | indexRevision => "unimplemented"
  | emptyPattern => "empty pattern"
  | shortHistory name entries asked =>
    s!"reflog for '{name}' has only {entries} entries, asked for {asked}"
  | unstated _ => "no error"
  | depth => "tree too deep"

end RepositoryFault

end TestSelection
