import TestSelection.Document.Fault

/-!
Documents as trees. A document is delivered as a tree of records, sequences and scalars, whatever
its format. Where the text stops following its grammar, the tree ends in a fault, and a sequence or
record that was cut off there says that it is not whole; what was read before stands and is looked
at first, so that a wrong value is reported before a fault behind it.
-/

namespace TestSelection

/-- A value without parts: the text it gives where a text is wanted, whether it is written plainly,
in a format that lets an empty plain text stand for nothing, and how it is described where it does
not fit. -/
structure Scalar where
  text : Option String
  plain : Bool
  found : Found
  deriving Repr, DecidableEq

/-- Whether a scalar stands for an empty sequence or record. -/
def Scalar.blank (value : Scalar) : Bool := value.plain && value.text = some ""

/-- The key of a record entry. Only a text names a field. -/
inductive Key
  | text (name : String)
  | misfit (found : Found)
  | fault
  deriving Repr, DecidableEq

mutual

inductive Tree
  | scalar (value : Scalar)
  | sequence (items : List Tree) (whole : Bool)
  | record (entries : List Entry) (whole : Bool)
  | fault

inductive Entry
  | mk (key : Key) (value : Tree)

end

namespace Entry

def key : Entry → Key
  | mk key _ => key

def value : Entry → Tree
  | mk _ value => value

end Entry

/-- Whether a record may be written as the sequence of its fields, and whether more items than
fields break the grammar then. -/
structure Dialect where
  listedRecords : Bool
  surplusFaults : Bool

namespace Tree

/-- A tree that is complete and has the given scalar text. -/
def ofText (content : String) : Tree := .scalar ⟨some content, false, .text content⟩

/-- The fault of a tree that stands where `expected` should. -/
def misplaced (expected : String) : Tree → DocumentFault
  | scalar value => .unexpected value.found expected
  | sequence _ _ => .unexpected .sequence expected
  | record _ _ => .unexpected .map expected
  | fault => .grammar

def decodeText (expected : String) : Tree → Except DocumentFault String
  | scalar value =>
    match value.text with
    | some content => .ok content
    | none => .error (.unexpected value.found expected)
  | other => .error (other.misplaced expected)

/-- Passes on a value read from parts, unless the parts were cut off. -/
def closed {α : Type} (whole : Bool) (value : α) : Except DocumentFault α :=
  if whole then .ok value else .error .grammar

def decodeList {α : Type} (decodeItem : Tree → Except DocumentFault α) :
    Tree → Except DocumentFault (List α)
  | sequence items whole => (items.mapM decodeItem).bind (closed whole)
  | scalar value =>
    if value.blank then .ok [] else .error (.unexpected value.found "a sequence")
  | other => .error (other.misplaced "a sequence")

def decodeTexts : Tree → Except DocumentFault (List String) := decodeList (decodeText "a string")

end Tree

/-- What was read of a document: its tree, and whether the text ends properly after it. -/
structure Document where
  root : Tree
  ended : Bool

/-- Reads a document with `decode`. What stands after the tree is looked at last. -/
def Document.read {α : Type} (document : Document) (decode : Tree → Except DocumentFault α) :
    Except DocumentFault α :=
  (decode document.root).bind (Tree.closed document.ended)

end TestSelection
