import TestSelection.Detection.Outcome

/-!
Computing each outcome once. A cache keeps, for every key, the computation that was started first,
and its outcome once there is one; nothing is ever replaced or dropped. A computation is numbered
by its place in the order of starts, and that number is the identity of the outcome it produces.

A look-up asks for the outcome of a key and says what to do when none is known yet: first the
look-ups it is built on, then its own outcome. One that asks for a key whose computation is still
going on waits for itself and has no answer.
-/

namespace TestSelection

structure Computation where
  key : String
  outcome : Option DetectionOutcome
  deriving DecidableEq

theorem length_no_computations : 0 = ([] : List Computation).length := rfl

/-- The computations started so far, in the order in which they were started, and their number. -/
structure DetectionCache where
  started : List Computation := []
  computations : Nat := 0
  counted : computations = started.length := by exact TestSelection.length_no_computations
  deriving DecidableEq

/-- A request for the outcome of `key`, with the requests that computing it makes first. -/
inductive Lookup
  | mk (key : String) (outcome : DetectionOutcome) (nested : List Lookup)

namespace Lookup

def key : Lookup → String
  | mk key _ _ => key

def outcome : Lookup → DetectionOutcome
  | mk _ outcome _ => outcome

def nested : Lookup → List Lookup
  | mk _ _ nested => nested

end Lookup

/-- The key under which a run keeps the changes of its repository. -/
def changesKey : String := "modgate.changes"

/-- What is known about a key. -/
inductive Slot
  | vacant
  | inProgress (number : Nat)
  | filled (number : Nat) (outcome : DetectionOutcome)
  deriving DecidableEq

namespace DetectionCache

def slot (cache : DetectionCache) (key : String) : Slot :=
  match cache.started.findIdx? fun computation => computation.key = key with
  | none => .vacant
  | some number =>
    match (cache.started[number]?).bind (·.outcome) with
    | none => .inProgress number
    | some outcome => .filled number outcome

/-- The number and outcome stored under `key`. Looking never starts a computation. -/
def get? (cache : DetectionCache) (key : String) : Option (Nat × DetectionOutcome) :=
  match cache.slot key with
  | .filled number outcome => some (number, outcome)
  | _ => none

def start (cache : DetectionCache) (key : String) : DetectionCache where
  started := cache.started ++ [⟨key, none⟩]
  computations := cache.computations + 1
  counted := by rw [cache.counted, List.length_append, List.length_singleton]

/-- Stores the outcome of the computation with the given number. -/
def store (cache : DetectionCache) (number : Nat) (outcome : DetectionOutcome) :
    DetectionCache where
  started := cache.started.modify number fun computation =>
    { computation with outcome := some outcome }
  computations := cache.computations
  counted := by rw [cache.counted, List.length_modify]

mutual

/-- The number and outcome that a look-up gives, and the cache after it. -/
def run (cache : DetectionCache) : Lookup → Option ((Nat × DetectionOutcome) × DetectionCache)
  | .mk key outcome nested =>
    match cache.slot key with
    | .filled number stored => some ((number, stored), cache)
    | .inProgress _ => none
    | .vacant =>
      (runAll (cache.start key) nested).map fun after =>
        ((cache.computations, outcome), after.store cache.computations outcome)

/-- The cache after a list of look-ups, one after the other. -/
def runAll (cache : DetectionCache) : List Lookup → Option DetectionCache
  | [] => some cache
  | lookup :: rest =>
    match run cache lookup with
    | none => none
    | some (_, after) => runAll after rest

end

end DetectionCache

end TestSelection
