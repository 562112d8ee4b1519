import TestSelection.Document.Tree
import TestSelection.Module.Graph

/-!
Module graphs as documents. The record at the root has one field, the list of modules; a module is
a record with a name and up to three lists of texts. Other fields, and a field given twice, are
refused. Reading goes from left to right and reports the first thing that is wrong.
-/

namespace TestSelection

namespace ModuleSpec

/-- The fields of a module that have been read so far. -/
structure Partial where
  name : Option String := none
  lists : List (String × List String) := []

def listNames : List String := ["packages", "entities", "depends-on"]

def fieldNames : List String := "name" :: listNames

/-- The value of a field that must not have been given before. -/
def once {α : Type} (name : String) (given : Option α) (value : Except DocumentFault α) :
    Except DocumentFault α :=
  match given with
  | some _ => .error (.repeatedField name)
  | none => value

def Partial.setField (fields : Partial) (name : String) (value : Tree) :
    Except DocumentFault Partial :=
  if name = "name" then
    (once name fields.name (value.decodeText "a string")).map fun content =>
      { fields with name := some content }
  else if name ∈ listNames then
    (once name (fields.lists.lookup name) value.decodeTexts).map fun texts =>
      { fields with lists := fields.lists ++ [(name, texts)] }
  else .error (.unknownField name fieldNames)

def Partial.setEntry (fields : Partial) (entry : Entry) : Except DocumentFault Partial :=
  match entry.key with
  | .text name => fields.setField name entry.value
  | .misfit found => .error (.unexpected found "field identifier")
  | .fault => .error .grammar

/-- The list read under a name; a list that is not given is empty. -/
def Partial.list (fields : Partial) (name : String) : List String :=
  (fields.lists.lookup name).getD []

/-- The module of the fields read. -/
def Partial.finish (fields : Partial) : Except DocumentFault ModuleSpec :=
  match fields.name with
  | none => .error (.missingField "name")
  | some name =>
    .ok ⟨name, fields.list "packages", fields.list "entities", fields.list "depends-on"⟩

def ofEntries (entries : List Entry) (whole : Bool) : Except DocumentFault ModuleSpec :=
  ((entries.foldlM Partial.setEntry {}).bind (Tree.closed whole)).bind Partial.finish

/-- A module written as the list of its fields in order, trailing lists left out. -/
def ofItems (dialect : Dialect) (items : List Tree) (whole : Bool) :
    Except DocumentFault ModuleSpec :=
  match items with
  | [] =>
    if whole then .error (.wrongLength 0 "struct ModuleSpec with 4 elements") else .error .grammar
  | first :: rest =>
    (first.decodeText "a string").bind fun name =>
    ((rest.take 3).mapM Tree.decodeTexts).bind fun lists =>
    if dialect.surplusFaults && rest.length > 3 then .error .grammar
    else Tree.closed whole
      ⟨name, (lists[0]?).getD [], (lists[1]?).getD [], (lists[2]?).getD []⟩

def ofTree (dialect : Dialect) : Tree → Except DocumentFault ModuleSpec
  | .record entries whole => ofEntries entries whole
  | .sequence items whole =>
    if dialect.listedRecords then ofItems dialect items whole
    else .error (.unexpected .sequence "struct ModuleSpec")
  | .scalar value =>
    if value.blank then ofEntries [] true
    else .error (.unexpected value.found "struct ModuleSpec")
  | .fault => .error .grammar

end ModuleSpec

namespace ModuleGraph

/-- The modules read from the entries of the root so far. -/
def setEntry (dialect : Dialect) (given : Option (List ModuleSpec)) (entry : Entry) :
    Except DocumentFault (Option (List ModuleSpec)) :=
  match entry.key with
  | .text name =>
    if name = "module" || name = "modules" then
      (ModuleSpec.once "modules" given
        (entry.value.decodeList (ModuleSpec.ofTree dialect))).map some
    else .error (.unknownField name ["module", "modules"])
  | .misfit found => .error (.unexpected found "field identifier")
  | .fault => .error .grammar

def specsOfEntries (dialect : Dialect) (entries : List Entry) (whole : Bool) :
    Except DocumentFault (List ModuleSpec) :=
  ((entries.foldlM (setEntry dialect) none).bind (Tree.closed whole)).map (·.getD [])

def specsOfItems (dialect : Dialect) (items : List Tree) (whole : Bool) :
    Except DocumentFault (List ModuleSpec) :=
  match items with
  | [] => Tree.closed whole []
  | first :: rest =>
    (first.decodeList (ModuleSpec.ofTree dialect)).bind fun specs =>
    if dialect.surplusFaults && rest.length > 0 then .error .grammar else Tree.closed whole specs

/-- The declarations that a document holds. -/
def specsOfTree (dialect : Dialect) : Tree → Except DocumentFault (List ModuleSpec)
  | .record entries whole => specsOfEntries dialect entries whole
  | .sequence items whole =>
    if dialect.listedRecords then specsOfItems dialect items whole
    else .error (.unexpected .sequence "struct GraphFile")
  | .scalar value =>
    if value.blank then .ok [] else .error (.unexpected value.found "struct GraphFile")
  | .fault => .error .grammar

end ModuleGraph

end TestSelection
