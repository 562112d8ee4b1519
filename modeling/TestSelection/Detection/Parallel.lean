import TestSelection.Detection.Concurrent
import TestSelection.Report.Selection

/-!
Deciding about many candidates at once. Every candidate has a worker of its own, all workers share
the cache of one run, and their steps may come in any order. A step locates the module of the
candidate, finds or creates the slot of the changes, starts the detection if nobody has, asks the
source, stores what it found, or reads what is stored; each of these happens at once. A worker at a
slot whose detection is going on cannot step until the outcome is stored. Workers that a pool of
threads takes up one after the other are workers whose first step comes late.
-/

namespace TestSelection

/-- How far the worker of a candidate has come. -/
inductive Progress
  | waiting
  | located (name : String)
  | atSlot (name : String)
  | asking (name : String) (number : Nat)
  | storing (name : String) (number : Nat) (found : DetectionOutcome)
  | decided (decision : Decision)
  deriving DecidableEq

def Progress.decision? : Progress → Option Decision
  | decided decision => some decision
  | _ => none

/-- What the workers on one run share, and the candidates with how far each has come. -/
structure Crew where
  slots : List String
  standing : Selector.Standing
  members : List (TestCandidate × Progress)

namespace Crew

/-- The workers of a run that has not asked for changes, before their first steps. -/
def assemble (calls : Nat) (candidates : List TestCandidate) : Crew :=
  ⟨[], ⟨calls, {}⟩, candidates.map fun candidate => (candidate, .waiting)⟩

section

variable (selector : Selector) (read : BaselineReader) (graph : ModuleGraph)

/-- One step of a worker; `none` if it has decided or has to wait. -/
def advance (slots : List String) (standing : Selector.Standing) (candidate : TestCandidate) :
    Progress → Option (List String × Selector.Standing × Progress)
  | .waiting =>
    match Selector.module? graph candidate with
    | none => some (slots, standing, .decided (Selector.unlocated candidate))
    | some name => some (slots, standing, .located name)
  | .located name => some (Workshop.openSlot slots changesKey, standing, .atSlot name)
  | .atSlot name =>
    match standing.cache.slot changesKey with
    | .filled _ found => some (slots, standing, .decided (graph.decide name found))
    | .inProgress _ => none
    | .vacant =>
      some (slots, ⟨standing.calls, standing.cache.start changesKey⟩,
        .asking name standing.cache.computations)
  | .asking name number =>
    some (slots, ⟨standing.calls + 1, standing.cache⟩,
      .storing name number (selector.detect read standing.calls).value)
  | .storing name number found =>
    some (slots, ⟨standing.calls, standing.cache.store number found⟩,
      .decided (graph.decide name found))
  | .decided _ => none

/-- One step of the worker with the given index, if it has not decided and need not wait. -/
def step (crew : Crew) (index : Nat) : Option Crew :=
  match crew.members[index]? with
  | none => none
  | some (candidate, progress) =>
    (advance selector read graph crew.slots crew.standing candidate progress).map
      fun (slots, standing, next) => ⟨slots, standing, crew.members.set index (candidate, next)⟩

/-- The crew after steps of the given workers in turn; a worker that cannot step is passed over. -/
def run (crew : Crew) (schedule : List Nat) : Crew :=
  schedule.foldl (fun current index => (current.step selector read graph index).getD current) crew

end

def isDone (crew : Crew) : Bool := crew.members.all fun member => member.2.decision?.isSome

/-- What has been decided so far, in the order of the candidates. -/
def tests (crew : Crew) : List TestReport :=
  crew.members.filterMap fun member => member.2.decision?.map (TestReport.of member.1.text)

def report (selector : Selector) (crew : Crew) : SelectReport :=
  selector.report crew.standing crew.tests

end Crew

end TestSelection
