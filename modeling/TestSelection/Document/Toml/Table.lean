import TestSelection.Document.Tree

/-!
Tables that grow entry by entry. A table is opened by a header or comes about on the way to
something deeper, through a header or through a dotted key; where it comes from decides who may add
to it later. Entries keep the order in which they were made, and no entry is made twice.
-/

namespace TestSelection.Toml

/-- What stands under a key: a finished value, a table, or the tables of repeated headers. -/
inductive Node
  | leaf (tree : Tree)
  | table (implied dotted : Bool) (entries : List (String × Node))
  | tables (items : List Node)

namespace Node

/-- A table that a header opens, or the outermost one. -/
def opened (entries : List (String × Node)) : Node := .table false false entries

def find (key : String) (entries : List (String × Node)) : Option Node := entries.lookup key

/-- The entries with `node` under `key`, in its old place or else at the end. -/
def put (key : String) (node : Node) : List (String × Node) → List (String × Node)
  | [] => [(key, node)]
  | (other, old) :: rest =>
    if other = key then (key, node) :: rest else (other, old) :: put key node rest

def remove (key : String) (entries : List (String × Node)) : List (String × Node) :=
  entries.filter fun entry => entry.1 ≠ key

/-- The part of a node that a path leads on into: a table itself, or the last of repeated ones. A
dotted key leads into no table that a header has opened. -/
def enter? (throughDots : Bool) : Node → Option (List (String × Node) × Bool)
  | .leaf _ => none
  | .table implied dotted entries =>
    if throughDots && !implied then none else some (entries, dotted)
  | .tables items =>
    match items.getLast? with
    | some (.table _ dotted entries) => some (entries, dotted)
    | _ => none

/-- Rebuilds a node around changed entries. -/
def withEntries (node : Node) (entries : List (String × Node)) : Node :=
  match node with
  | .leaf tree => .leaf tree
  | .table implied dotted _ => .table implied dotted entries
  | .tables items =>
    match items.getLast? with
    | some (.table implied dotted _) => .tables (items.dropLast ++ [.table implied dotted entries])
    | _ => .tables items

/-- Changes the entries at the end of a path, making the tables on the way that are missing. The
change is told whether the table it is made in came about through dots. -/
def changeAt (throughDots : Bool)
    (change : Bool → List (String × Node) → Option (List (String × Node))) :
    List String → Bool → List (String × Node) → Option (List (String × Node))
  | [], dotted, entries => change dotted entries
  | key :: path, _, entries =>
    let node := (find key entries).getD (.table true throughDots [])
    match enter? throughDots node with
    | none => none
    | some (inner, dotted) =>
      (changeAt throughDots change path dotted inner).map fun changed =>
        put key (node.withEntries changed) entries

/-- Adds a finished value under a path of keys. A key without dots adds to the table itself, one
with dots only to a table that dots have made. -/
def addValue (path : List String) (key : String) (tree : Tree) (entries : List (String × Node)) :
    Option (List (String × Node)) :=
  changeAt true (fun dotted inner =>
    if dotted = path.isEmpty then none
    else
      match find key inner with
      | some _ => none
      | none => some (inner ++ [(key, .leaf tree)])) path false entries

mutual

def toTree : Node → Tree
  | .leaf tree => tree
  | .table _ _ entries => .record (toEntries entries) true
  | .tables items => .sequence (toTrees items) true

def toEntries : List (String × Node) → List Entry
  | [] => []
  | (key, node) :: rest => .mk (.text key) (toTree node) :: toEntries rest

def toTrees : List Node → List Tree
  | [] => []
  | node :: rest => toTree node :: toTrees rest

end

end Node

/-- A document of which some lines have been read: the tables closed so far, and the one that the
last header opened with its path. -/
structure Progress where
  root : List (String × Node) := []
  path : List String := []
  repeated : Bool := false
  current : List (String × Node) := []

namespace Progress

/-- Puts the table of the last header in its place. -/
def close (progress : Progress) : Option (List (String × Node)) :=
  match progress.path.getLast? with
  | none => some progress.current
  | some key =>
    Node.changeAt false (fun _ inner =>
      if progress.repeated then
        match Node.find key inner with
        | some (.tables items) =>
          some (Node.put key (.tables (items ++ [Node.opened progress.current])) inner)
        | none => some (Node.put key (.tables [Node.opened progress.current]) inner)
        | _ => none
      else
        match Node.find key inner with
        | none | some (.table ..) => some (Node.put key (Node.opened progress.current) inner)
        | _ => none) progress.path.dropLast false progress.root

/-- Takes the entries of an implied table away from `inner`, to be the start of a table that a
header opens under `key`. Nothing else may stand there. -/
def claim (key : String) (inner : List (String × Node)) : Option (List (String × Node)) :=
  match Node.find key inner with
  | none => some inner
  | some (.table true false _) => some (Node.remove key inner)
  | _ => none

/-- The entries under a path, when all of it exists. -/
def entriesAt : List String → List (String × Node) → List (String × Node)
  | [], entries => entries
  | key :: path, entries =>
    match (Node.find key entries).bind (Node.enter? false) with
    | some (inner, _) => entriesAt path inner
    | none => []

/-- Opens the table of a header. -/
def openTable (progress : Progress) (path : List String) (key : String) : Option Progress :=
  progress.close.bind fun root =>
    let before := (Node.find key (entriesAt path root)).bind (Node.enter? false)
    (Node.changeAt false (fun _ inner => claim key inner) path false root).map fun rest =>
      ⟨rest, path ++ [key], false, (before.map (·.1)).getD []⟩

/-- Opens one more of the tables that share a header. -/
def openRepeated (progress : Progress) (path : List String) (key : String) : Option Progress :=
  progress.close.bind fun root =>
    (Node.changeAt false (fun _ inner =>
      match Node.find key inner with
      | none => some (Node.put key (.tables []) inner)
      | some (.tables _) => some inner
      | _ => none) path false root).map fun rest => ⟨rest, path ++ [key], true, []⟩

def add (progress : Progress) (path : List String) (key : String) (tree : Tree) :
    Option Progress :=
  (Node.addValue path key tree progress.current).map fun current =>
    { progress with current := current }

end Progress

end TestSelection.Toml
