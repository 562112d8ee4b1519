import TestSelection.Document.Yaml.Kind
import TestSelection.Document.Yaml.Scanner

/-!
The nodes of a YAML document, read from its tokens. A node may carry an anchor, and a reference
stands for the node whose anchor it names. Anchors are numbered as they are introduced. Where the
tokens make no sense, or run out in a fault, the node that should begin there is a fault and the
nodes around it are not whole.
-/

namespace TestSelection.Yaml

inductive Node
  | scalar (anchor : Option Nat) (tag : Option String) (content : String) (plain : Bool)
  | sequence (anchor : Option Nat) (items : List Node) (whole : Bool)
  | mapping (anchor : Option Nat) (entries : List (Node × Node)) (whole : Bool)
  | reference (anchor : Nat)
  | fault

/-- A place between tokens, with the handles for tags and the anchors known there. -/
structure Reading where
  scanner : Scanner
  handles : List (String × String) := []
  anchors : List (String × Nat) := []

namespace Reading

def peek (reading : Reading) : Option (Token × Reading) :=
  reading.scanner.peek.map fun (token, scanner) => (token, { reading with scanner := scanner })

def drop (reading : Reading) : Reading := { reading with scanner := reading.scanner.drop }

/-- The token in front, passed over, and the one behind it. -/
def next (reading : Reading) : Option (Token × Reading) := reading.drop.peek

/-- Numbers an anchor. The number counts the distinct anchors before it, so an anchor that is
introduced again shares its new number with the next one. -/
def introduce (reading : Reading) : Option String → Option Nat × Reading
  | none => (none, reading)
  | some name =>
    let number := reading.anchors.length
    let others := reading.anchors.filter fun entry => entry.1 ≠ name
    (some number, { reading with anchors := (name, number) :: others })

/-- The meaning of a tag, from the handles that the document declares and the two standard ones. -/
def resolveTag (reading : Reading) (handle suffix : String) : Option String :=
  if handle = "" then some suffix
  else
    ((reading.handles ++ [("!", "!"), ("!!", "tag:yaml.org,2002:")]).lookup handle).map
      (· ++ suffix)

end Reading

def emptyNode : Node := .scalar none none "" true

/-- The anchor and the tag in front of a node, in either order. -/
structure Properties where
  anchor : Option String := none
  tag : Option (String × String) := none

/-- The properties in front, and the token behind them. -/
def readProperties (token : Token) (reading : Reading) :
    Option (Properties × Token × Reading) :=
  match token with
  | .anchor name =>
    reading.next.bind fun (second, after) =>
      match second with
      | .tag handle suffix =>
        after.next.map fun (third, last) => (⟨some name, some (handle, suffix)⟩, third, last)
      | _ => some (⟨some name, none⟩, second, after)
  | .tag handle suffix =>
    reading.next.bind fun (second, after) =>
      match second with
      | .anchor name =>
        after.next.map fun (third, last) => (⟨some name, some (handle, suffix)⟩, third, last)
      | _ => some (⟨none, some (handle, suffix)⟩, second, after)
  | _ => some ({}, token, reading)

/-- The tag of a node as a whole: `none` if its handle is unknown. -/
def wholeTag (reading : Reading) (properties : Properties) : Option (Option String) :=
  match properties.tag with
  | none => some none
  | some (handle, suffix) => (reading.resolveTag handle suffix).map some

def endsBlockItem : Token → Bool
  | .blockEntry | .blockEnd => true
  | _ => false

def endsLooseItem : Token → Bool
  | .blockEntry | .key | .value | .blockEnd => true
  | _ => false

def endsBlockPart : Token → Bool
  | .key | .value | .blockEnd => true
  | _ => false

def endsPair : Token → Bool
  | .flowEntry | .flowSequenceEnd => true
  | _ => false

def endsPairKey : Token → Bool
  | .value | .flowEntry | .flowSequenceEnd => true
  | _ => false

def endsFlowPart : Token → Bool
  | .flowEntry | .flowMappingEnd => true
  | _ => false

def endsFlowKey : Token → Bool
  | .value | .flowEntry | .flowMappingEnd => true
  | _ => false

mutual

/-- The node in front. `block` admits blocks; `loose` admits a sequence whose entries are not
indented more than the key before it. -/
def readNode : Nat → Bool → Bool → Reading → Node × Option Reading
  | 0, _, _, _ => (.fault, none)
  | fuel + 1, block, loose, reading =>
    match reading.peek with
    | none => (.fault, none)
    | some (.reference name, after) =>
      match after.anchors.lookup name with
      | some number => (.reference number, some after.drop)
      | none => (.fault, none)
    | some (token, after) =>
      match readProperties token after with
      | none => (.fault, none)
      | some (properties, first, behind) =>
        match wholeTag behind properties with
        | none => (.fault, none)
        | some tag =>
          let (anchor, ready) := behind.introduce properties.anchor
          match first with
          | .blockEntry =>
            if loose then looseItems fuel anchor [] ready
            else if properties.anchor.isSome || tag.isSome then
              (.scalar anchor tag "" true, some ready)
            else (.fault, none)
          | .scalar content style =>
            let kept := if tag = some "!" then none else tag
            (.scalar anchor kept content (style = .plain), some ready.drop)
          | .flowSequenceStart => flowItems fuel true anchor [] ready.drop
          | .flowMappingStart => flowEntries fuel true anchor [] ready.drop
          | .blockSequenceStart =>
            if block then blockItems fuel anchor [] ready.drop
            else if properties.anchor.isSome || tag.isSome then
              (.scalar anchor tag "" true, some ready)
            else (.fault, none)
          | .blockMappingStart =>
            if block then blockEntries fuel anchor [] ready.drop
            else if properties.anchor.isSome || tag.isSome then
              (.scalar anchor tag "" true, some ready)
            else (.fault, none)
          | _ =>
            if properties.anchor.isSome || tag.isSome then
              (.scalar anchor tag "" true, some ready)
            else (.fault, none)

/-- A node, or an empty scalar where a token that ends the part stands in front. -/
def readPart : Nat → (Token → Bool) → Bool → Bool → Reading → Node × Option Reading
  | 0, _, _, _, _ => (.fault, none)
  | fuel + 1, ends, block, loose, reading =>
    match reading.peek with
    | none => (.fault, none)
    | some (token, after) =>
      if ends token then (emptyNode, some after) else readNode fuel block loose after

def blockItems : Nat → Option Nat → List Node → Reading → Node × Option Reading
  | 0, anchor, read, _ => (.sequence anchor read.reverse false, none)
  | fuel + 1, anchor, read, reading =>
    match reading.peek with
    | some (.blockEntry, after) =>
      match readPart fuel endsBlockItem true false after.drop with
      | (item, some rest) => blockItems fuel anchor (item :: read) rest
      | (item, none) => (.sequence anchor (item :: read).reverse false, none)
    | some (.blockEnd, after) => (.sequence anchor read.reverse true, some after.drop)
    | _ => (.sequence anchor read.reverse false, none)

def looseItems : Nat → Option Nat → List Node → Reading → Node × Option Reading
  | 0, anchor, read, _ => (.sequence anchor read.reverse false, none)
  | fuel + 1, anchor, read, reading =>
    match reading.peek with
    | some (.blockEntry, after) =>
      match readPart fuel endsLooseItem true false after.drop with
      | (item, some rest) => looseItems fuel anchor (item :: read) rest
      | (item, none) => (.sequence anchor (item :: read).reverse false, none)
    | some (_, after) => (.sequence anchor read.reverse true, some after)
    | none => (.sequence anchor read.reverse false, none)

def blockEntries : Nat → Option Nat → List (Node × Node) → Reading → Node × Option Reading
  | 0, anchor, read, _ => (.mapping anchor read.reverse false, none)
  | fuel + 1, anchor, read, reading =>
    match reading.peek with
    | some (.key, after) =>
      match readPart fuel endsBlockPart true true after.drop with
      | (key, none) => (.mapping anchor ((key, .fault) :: read).reverse false, none)
      | (key, some rest) =>
        match readValue fuel endsBlockPart true rest with
        | (value, some last) => blockEntries fuel anchor ((key, value) :: read) last
        | (value, none) => (.mapping anchor ((key, value) :: read).reverse false, none)
    | some (.blockEnd, after) => (.mapping anchor read.reverse true, some after.drop)
    | _ => (.mapping anchor read.reverse false, none)

/-- The value behind a key; without its sign it is empty. -/
def readValue : Nat → (Token → Bool) → Bool → Reading → Node × Option Reading
  | 0, _, _, _ => (.fault, none)
  | fuel + 1, ends, block, reading =>
    match reading.peek with
    | none => (.fault, none)
    | some (.value, after) => readPart fuel ends block block after.drop
    | some (_, after) => (emptyNode, some after)

/-- The rest of a sequence in brackets. -/
def flowItems : Nat → Bool → Option Nat → List Node → Reading → Node × Option Reading
  | 0, _, anchor, read, _ => (.sequence anchor read.reverse false, none)
  | fuel + 1, first, anchor, read, reading =>
    match reading.peek with
    | none => (.sequence anchor read.reverse false, none)
    | some (.flowSequenceEnd, after) => (.sequence anchor read.reverse true, some after.drop)
    | some (token, after) =>
      match (if first then some (token, after)
          else if token = .flowEntry then after.next else none) with
      | none => (.sequence anchor read.reverse false, none)
      | some (.flowSequenceEnd, rest) => (.sequence anchor read.reverse true, some rest.drop)
      | some (start, rest) =>
        match (if start = .key then readPair fuel rest.drop
            else readNode fuel false false rest) with
        | (item, some last) => flowItems fuel false anchor (item :: read) last
        | (item, none) => (.sequence anchor (item :: read).reverse false, none)

/-- A single entry that is an item of a sequence in brackets. An empty key takes the token behind
it along. -/
def readPair : Nat → Reading → Node × Option Reading
  | 0, _ => (.fault, none)
  | fuel + 1, reading =>
    match reading.peek with
    | none => (.mapping none [] false, none)
    | some (token, after) =>
      match (if endsPairKey token then (emptyNode, some after.drop)
          else readNode fuel false false after) with
      | (key, none) => (.mapping none [(key, .fault)] false, none)
      | (key, some rest) =>
        match readValue fuel endsPair false rest with
        | (value, some last) => (.mapping none [(key, value)] true, some last)
        | (value, none) => (.mapping none [(key, value)] false, none)

/-- The rest of a mapping in braces. -/
def flowEntries : Nat → Bool → Option Nat → List (Node × Node) → Reading → Node × Option Reading
  | 0, _, anchor, read, _ => (.mapping anchor read.reverse false, none)
  | fuel + 1, first, anchor, read, reading =>
    match reading.peek with
    | none => (.mapping anchor read.reverse false, none)
    | some (.flowMappingEnd, after) => (.mapping anchor read.reverse true, some after.drop)
    | some (token, after) =>
      match (if first then some (token, after)
          else if token = .flowEntry then after.next else none) with
      | none => (.mapping anchor read.reverse false, none)
      | some (.flowMappingEnd, rest) => (.mapping anchor read.reverse true, some rest.drop)
      | some (.key, rest) =>
        match readPart fuel endsFlowKey false false rest.drop with
        | (key, none) => (.mapping anchor ((key, .fault) :: read).reverse false, none)
        | (key, some more) =>
          match readValue fuel endsFlowPart false more with
          | (value, some last) => flowEntries fuel false anchor ((key, value) :: read) last
          | (value, none) => (.mapping anchor ((key, value) :: read).reverse false, none)
      | some (_, rest) =>
        match readNode fuel false false rest with
        | (key, none) => (.mapping anchor ((key, .fault) :: read).reverse false, none)
        | (key, some last) =>
          match last.peek with
          | some (_, peeked) => flowEntries fuel false anchor ((key, emptyNode) :: read) peeked
          | none => (.mapping anchor ((key, .fault) :: read).reverse false, none)

end

end TestSelection.Yaml
