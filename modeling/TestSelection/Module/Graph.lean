import TestSelection.Ascending
import TestSelection.Module.Package

/-!
Module graphs. A graph is built from declarations: each module has a name, base packages, further
identities it owns, and the modules it depends on. Declarations are accepted when their names are
distinct and every dependency is declared; order and repetition within them carry no meaning.
-/

namespace TestSelection

structure ModuleSpec where
  name : String
  packages : List String := []
  entities : List String := []
  dependencies : List String := []
  deriving Repr, DecidableEq

inductive GraphFault
  | repeated (name : String)
  | undeclared (name dependency : String)
  deriving Repr, DecidableEq

def GraphFault.message : GraphFault → String
  | repeated name => s!"duplicate module `{name}`"
  | undeclared name dependency =>
    s!"module `{name}` depends on undeclared module `{dependency}`"

/-- Accepted declarations in ascending order of their names, the dependencies of each in
ascending order. -/
structure ModuleGraph where
  modules : List ModuleSpec
  deriving Repr, DecidableEq

namespace ModuleGraph

/-- The first entry that is in `seen` or occurred earlier in the list. -/
def firstRepeated (seen : List String) : List String → Option String
  | [] => none
  | name :: rest => if name ∈ seen then some name else firstRepeated (seen ++ [name]) rest

def ordered (specs : List ModuleSpec) : List ModuleSpec :=
  (specs.map fun spec => { spec with dependencies := Ascending.ofList spec.dependencies }).mergeSort
    fun a b => decide (a.name ≤ b.name)

/-- The first dependency, in order of modules and then of dependencies, that is not declared. -/
def firstUndeclared (modules : List ModuleSpec) : Option GraphFault :=
  modules.findSome? fun spec =>
    (spec.dependencies.find? fun dependency => modules.all fun other => other.name ≠ dependency).map
      (.undeclared spec.name)

def ofSpecs (specs : List ModuleSpec) : Except GraphFault ModuleGraph :=
  match firstRepeated [] (specs.map (·.name)) with
  | some name => .error (.repeated name)
  | none =>
    match firstUndeclared (ordered specs) with
    | some fault => .error fault
    | none => .ok ⟨ordered specs⟩

def empty : ModuleGraph := ⟨[]⟩

def names (graph : ModuleGraph) : List String := graph.modules.map (·.name)

def size (graph : ModuleGraph) : Nat := graph.modules.length

def isEmpty (graph : ModuleGraph) : Bool := graph.modules.isEmpty

def find? (graph : ModuleGraph) (name : String) : Option ModuleSpec :=
  graph.modules.find? fun spec => spec.name = name

/-- The modules that `name` depends on directly; a module that is not declared has none. -/
def dependencies (graph : ModuleGraph) (name : String) : List String :=
  ((graph.find? name).map (·.dependencies)).getD []

/-- Whether the module `name` owns `identity`, by one of its packages or by name. -/
def containsEntity (graph : ModuleGraph) (name identity : String) : Bool :=
  match graph.find? name with
  | none => false
  | some spec =>
    spec.entities.contains identity ||
      spec.packages.any fun base => isWithin (packageOf identity) base

/-- Every declared base package that `package` lies within, with its module, in order. -/
def bases (graph : ModuleGraph) (package : String) : List (String × String) :=
  graph.modules.flatMap fun spec =>
    (spec.packages.filter fun base => isWithin package base).map fun base => (spec.name, base)

/-- The first entry whose base is longer than every base before it. -/
def longest : List (String × String) → Option (String × String)
  | [] => none
  | entry :: rest =>
    match longest rest with
    | none => some entry
    | some other => if entry.2.length < other.2.length then some other else some entry

/-- The module with the longest base package that `package` lies within; of modules that declare
the same base, the first by name. -/
def moduleForPackage (graph : ModuleGraph) (package : String) : Option String :=
  (longest (graph.bases package)).map (·.1)

end ModuleGraph

end TestSelection
