import TestSelection.Module.Reachable

/-!
The traversal of a module graph, one step after the other. A step takes the first module from the
queue. One that has been visited is passed over; another is visited and asked for its dependencies,
and those that have not been visited join the queue. A module may wait in the queue several times.
-/

namespace TestSelection.ModuleGraph

/-- A traversal under way: the modules visited, those that wait, and those that were asked for their
dependencies. -/
structure Traversal where
  visited : List String
  queue : List String
  asked : List String
  deriving Repr, DecidableEq

namespace Traversal

def begin (start : String) : Traversal := ⟨[], [start], []⟩

def passOver (traversal : Traversal) (queue : List String) : Traversal :=
  { traversal with queue }

/-- Visits `name` and asks it for its dependencies; `queue` is what waits behind it. -/
def read (graph : ModuleGraph) (traversal : Traversal) (name : String) (queue : List String) :
    Traversal :=
  let visited := traversal.visited ++ [name]
  { visited
    queue := queue ++ (graph.dependencies name).filter fun next => !visited.contains next
    asked := traversal.asked ++ [name] }

/-- A traversal has ended when nothing waits. -/
def step (graph : ModuleGraph) (traversal : Traversal) : Option Traversal :=
  match traversal.queue with
  | [] => none
  | name :: queue =>
    if traversal.visited.contains name then some (traversal.passOver queue)
    else some (traversal.read graph name queue)

end Traversal

end TestSelection.ModuleGraph
