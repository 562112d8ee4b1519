import TestSelection.Document.Tree
import TestSelection.Document.Yaml.Node

/-!
Documents in YAML notation. A text holds one document, with directives and marks around it or
without. Its node becomes a tree in which every reference is replaced by what it refers to. A
reference may refer to a node that it is part of, so references are followed to a fixed depth.
-/

namespace TestSelection.Yaml

mutual

/-- The anchored nodes in the order in which they begin. -/
def anchored : Node → List (Nat × Node)
  | .scalar (some anchor) tag content plain => [(anchor, .scalar (some anchor) tag content plain)]
  | .sequence anchor items whole =>
    (anchor.toList.map fun number => (number, .sequence anchor items whole)) ++ anchoredItems items
  | .mapping anchor entries whole =>
    (anchor.toList.map fun number => (number, .mapping anchor entries whole)) ++
      anchoredEntries entries
  | _ => []

def anchoredItems : List Node → List (Nat × Node)
  | [] => []
  | item :: rest => anchored item ++ anchoredItems rest

def anchoredEntries : List (Node × Node) → List (Nat × Node)
  | [] => []
  | (key, value) :: rest => anchored key ++ anchored value ++ anchoredEntries rest

end

/-- A scalar gives its content wherever a text is wanted. -/
def scalarTree (tag : Option String) (content : String) (plain : Bool) : Tree :=
  let found :=
    match tag with
    | none => if plain then plainKind content else .text content
    | some tag => taggedKind tag content plain
  .scalar ⟨some content, plain, found⟩

def keyOfTree : Tree → Key
  | .scalar value =>
    match value.text with
    | some content => .text content
    | none => .misfit value.found
  | .sequence _ _ => .misfit .sequence
  | .record _ _ => .misfit .map
  | .fault => .fault

mutual

/-- The tree of a node, with the trees that references stand for. -/
def toTree (targets : List (Nat × Tree)) : Node → Tree
  | .scalar _ tag content plain => scalarTree tag content plain
  | .sequence _ items whole => .sequence (toItems targets items) whole
  | .mapping _ entries whole => .record (toEntries targets entries) whole
  | .reference anchor => (targets.lookup anchor).getD .fault
  | .fault => .fault

def toItems (targets : List (Nat × Tree)) : List Node → List Tree
  | [] => []
  | item :: rest => toTree targets item :: toItems targets rest

def toEntries (targets : List (Nat × Tree)) : List (Node × Node) → List Entry
  | [] => []
  | (key, value) :: rest =>
    .mk (keyOfTree (toTree targets key)) (toTree targets value) :: toEntries targets rest

end

/-- The depth to which references are followed; a declaration is less deep than that. -/
def referenceDepth : Nat := 8

/-- The trees of anchored nodes with references followed to the given depth. Of nodes that share a
number the last one counts. -/
def targetsTo (definitions : List (Nat × Node)) : Nat → List (Nat × Tree)
  | 0 => []
  | depth + 1 =>
    let inner := targetsTo definitions depth
    definitions.reverse.map fun (number, node) => (number, toTree inner node)

def treeOf (root : Node) : Tree := toTree (targetsTo (anchored root) referenceDepth) root

/-- The directives in front of a document: at most one version, 1.1 or 1.2, and no handle twice. -/
def readDirectives : Nat → Bool → Reading → Option Reading
  | 0, _, _ => none
  | fuel + 1, versioned, reading =>
    reading.peek.bind fun (token, after) =>
      match token with
      | .versionDirective major minor =>
        if versioned || major ≠ 1 || (minor ≠ 1 && minor ≠ 2) then none
        else readDirectives fuel true after.drop
      | .tagDirective handle start =>
        if (after.handles.lookup handle).isSome then none
        else readDirectives fuel versioned
          { after.drop with handles := after.handles ++ [(handle, start)] }
      | _ => some after

def endsDocument : Token → Bool
  | .versionDirective _ _ | .tagDirective _ _ | .documentStart | .documentEnd | .streamEnd => true
  | _ => false

/-- Whether nothing but marks of an ended document is left. -/
def isOver : Nat → Reading → Bool
  | 0, _ => false
  | fuel + 1, reading =>
    match reading.peek with
    | some (.documentEnd, after) => isOver fuel after.drop
    | some (.streamEnd, _) => true
    | _ => false

def finish (fuel : Nat) : Node × Option Reading → Document
  | (root, none) => ⟨treeOf root, false⟩
  | (root, some rest) => ⟨treeOf root, isOver fuel rest⟩

/-- The document that starts behind the start of the stream. Without anything in it there is an
empty document. -/
def readDocument (fuel : Nat) (reading : Reading) : Document :=
  match reading.peek with
  | none => ⟨.fault, false⟩
  | some (.streamEnd, _) => ⟨treeOf emptyNode, true⟩
  | some (token, after) =>
    let explicit :=
      match token with
      | .versionDirective _ _ | .tagDirective _ _ | .documentStart => true
      | _ => false
    if explicit then
      match readDirectives fuel false after with
      | none => ⟨.fault, false⟩
      | some marked =>
        match marked.peek with
        | some (.documentStart, start) =>
          finish fuel (readPart fuel endsDocument true false start.drop)
        | _ => ⟨.fault, false⟩
    else finish fuel (readNode fuel true false after)

def dialect : Dialect := ⟨false, false⟩

/-- The document that a text holds. A byte-order mark in front is no part of it, and one character
that must not occur at all spoils it. -/
def read (text : String) : Document :=
  let characters :=
    match text.toList with
    | '\ufeff' :: rest => rest
    | other => other
  if characters.any fun c => !isAllowed c then ⟨.fault, false⟩
  else
    let start : Reading := { scanner := Scanner.ofText characters }
    match start.peek with
    | none => ⟨.fault, false⟩
    | some (_, reading) => readDocument (8 * characters.length + 64) reading.drop

end TestSelection.Yaml
