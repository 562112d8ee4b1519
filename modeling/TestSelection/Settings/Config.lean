import TestSelection.Change.Layout
import TestSelection.Document.Toml.Lines
import TestSelection.Failure
import TestSelection.Settings.Selection

/-!
Settings. A settings document is a record with the version of its form and three sections, each of
which may be left out. The version is looked at first and on its own. Keys that have no meaning are
collected, with their section before a dot, and change nothing else; their values are kept as they
are.
-/

namespace TestSelection

structure LayoutSettings where
  mainMarker : String := SourceLayout.defaultMain
  testMarker : String := SourceLayout.defaultTest
  suffix : String := SourceLayout.defaultSuffix
  deriving Repr, DecidableEq

def LayoutSettings.sourceLayout (settings : LayoutSettings) : SourceLayout :=
  SourceLayout.ofTexts settings.mainMarker settings.testMarker settings.suffix

structure Config where
  version : Int := 0
  selection : Selection := {}
  layout : LayoutSettings := {}
  graphPath : Option String := none
  deriving Repr, DecidableEq

namespace Config

def supportedVersion : Int := 1

def decodeInteger : Tree → Except DocumentFault Int
  | .scalar ⟨_, _, .integer value⟩ => .ok value
  | other => .error (other.misplaced "i64")

/-- A key together with its value, or the fault that takes the place of a key. -/
def namedValue (entry : Entry) : Except DocumentFault (String × Tree) :=
  match entry.key with
  | .text name => .ok (name, entry.value)
  | .misfit found => .error (.unexpected found "field identifier")
  | .fault => .error .grammar

def entriesOf (expected : String) : Tree → Except DocumentFault (List (String × Tree))
  | .record entries whole => (entries.mapM namedValue).bind (Tree.closed whole)
  | other => .error (other.misplaced expected)

/-- The version that a document states, without a look at anything else in it. -/
def statedVersion (root : Tree) : Except DocumentFault (Option Int) :=
  (entriesOf "struct VersionOnly" root).bind fun entries =>
    match entries.lookup "version" with
    | none => .ok none
    | some value => (decodeInteger value).map some

/-- A field of a record that is read into an `α`, with what its value changes. -/
structure Field (α : Type) where
  name : String
  read : Tree → Except DocumentFault (α → α)

/-- A field for a text. -/
def Field.text {α : Type} (name expected : String) (put : String → α → α) : Field α :=
  ⟨name, fun value => (value.decodeText expected).map put⟩

def fieldNamed {α : Type} (fields : List (Field α)) (name : String) : Option (Field α) :=
  fields.find? fun field => field.name = name

/-- Reads an entry into `decoded`, if it is one of the fields. -/
def setField {α : Type} (fields : List (Field α)) (decoded : α) (entry : String × Tree) :
    Except DocumentFault α :=
  match fieldNamed fields entry.1 with
  | none => .ok decoded
  | some field => (field.read entry.2).map fun change => change decoded

/-- Accepts the value of an entry that is none of the fields. -/
def keepOther {α : Type} (fields : List (Field α)) (entry : String × Tree) :
    Except DocumentFault Unit :=
  match fieldNamed fields entry.1 with
  | none => Toml.keep entry.2
  | some _ => .ok ()

/-- The fields of a record, read one after the other into its defaults. The other entries are kept
and looked at last. -/
def decodeRecord {α : Type} (expected : String) (fields : List (Field α)) (defaults : α)
    (record : Tree) : Except DocumentFault α :=
  (entriesOf expected record).bind fun entries =>
  (entries.foldlM (setField fields) defaults).bind fun decoded =>
  (entries.forM (keepOther fields)).map fun _ => decoded

def selectionFields : List (Field Selection) :=
  [.text "detector" "a string" fun text selection => { selection with detector := some text },
    .text "reference-commit" "a string" fun text selection =>
      { selection with referenceCommit := some text }]

def layoutFields : List (Field LayoutSettings) :=
  [.text "main-marker" "a string" fun text layout => { layout with mainMarker := text },
    .text "test-marker" "a string" fun text layout => { layout with testMarker := text },
    .text "suffix" "a string" fun text layout => { layout with suffix := text }]

def graphFields : List (Field (Option String)) :=
  [.text "path" "path string" fun text _ => some text]

/-- A field for a section, which is a record itself. -/
def sectionField {α : Type} (name : String) (fields : List (Field α)) (defaults : α)
    (put : α → Config → Config) : Field Config :=
  ⟨name, fun value => (decodeRecord "struct Flexible" fields defaults value).map put⟩

def rootFields : List (Field Config) :=
  [⟨"version", fun value =>
      (decodeInteger value).map fun version config => { config with version := version }⟩,
    sectionField "selection" selectionFields {} fun selection config =>
      { config with selection := selection },
    sectionField "layout" layoutFields {} fun layout config => { config with layout := layout },
    sectionField "graph" graphFields none fun path config => { config with graphPath := path }]

/-- The sections with the keys that have a meaning in them. -/
def knownSections : List (String × List String) :=
  [("selection", ["detector", "reference-commit"]),
    ("layout", ["main-marker", "test-marker", "suffix"]), ("graph", ["path"])]

/-- The keys without a meaning in one entry of the root. -/
def unknownIn (entry : String × Tree) : List String :=
  if entry.1 = "version" then []
  else
    match knownSections.lookup entry.1 with
    | none => [entry.1]
    | some known =>
      match entriesOf "struct Flexible" entry.2 with
      | .error _ => []
      | .ok entries =>
        ((entries.map (·.1)).filter fun key => !known.contains key).map fun key =>
          entry.1 ++ "." ++ key

def unknownKeys (entries : List (String × Tree)) : List String :=
  (entries.flatMap unknownIn).mergeSort fun a b => decide (a ≤ b)

/-- The settings that a document holds, and its keys without a meaning in ascending order. -/
def ofTree (root : Tree) : Except ConfigFault (Config × List String) :=
  match statedVersion root with
  | .error fault => .error (.document fault)
  | .ok none => .error .noVersion
  | .ok (some version) =>
    if version ≠ supportedVersion then .error (.unsupportedVersion version)
    else
      match (decodeRecord "struct FlexibleConfig" rootFields {} root).bind fun config =>
          (entriesOf "struct FlexibleConfig" root).map fun entries =>
            (config, unknownKeys entries) with
      | .error fault => .error (.document fault)
      | .ok result => .ok result

/-- The settings in a text, with its keys without a meaning. -/
def parse (text : String) : Except ConfigFault (Config × List String) :=
  let document := Toml.read text
  if document.ended then ofTree document.root else .error (.document .grammar)

end Config

end TestSelection
