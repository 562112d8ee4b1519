import TestSelection.Detection.Cache

/-!
Many workers on one cache. Each worker carries out one look-up, and the steps of different workers
may come in any order; a thread that makes several look-ups in turn is as many workers, each of
which takes its first step late. A step finds or creates the slot of a key, starts the computation
of a slot that has none, stores an outcome, or reads a stored one; each of these happens at once.
A worker keeps hold of the slot that it has found, whatever becomes of the slots afterwards. At a
slot whose computation is going on it cannot step until the outcome is stored. No computation is
broken off: it goes on until there is an outcome, and a failure is one.
-/

namespace TestSelection

/-- A cache that workers share. Slots are created under keys, and the place of a slot among them is
its address. A slot in which a computation has been started holds its number. -/
structure SharedCache where
  slots : List String := []
  begun : Nat → Option Nat := fun _ => none
  cache : DetectionCache := {}

/-- How far one look-up of a worker has come. -/
inductive Stage
  | seeking
  | atSlot (address : Nat)
  | computing (number : Nat) (remaining : List Lookup)

structure Frame where
  lookup : Lookup
  stage : Stage

/-- A worker is busy with a look-up and those it is nested in, innermost first, or it has
returned with the number of an outcome. -/
inductive Worker
  | busy (frames : List Frame)
  | returned (number : Nat)

def Worker.of (lookup : Lookup) : Worker := .busy [⟨lookup, .seeking⟩]

/-- What is to be told of a step: the computation of a look-up has been started, or a look-up,
nested or not, has been answered with the number of an outcome. -/
inductive WorkEvent
  | started (lookup : Lookup)
  | answered (lookup : Lookup) (number : Nat)

/-- The shared cache, the workers on it, and what has happened so far. -/
structure Workshop where
  shared : SharedCache
  workers : List Worker
  history : List WorkEvent := []

namespace Workshop

/-- The slots after finding or creating the one of `key`. -/
def openSlot (slots : List String) (key : String) : List String :=
  if slots.contains key then slots else slots ++ [key]

end Workshop

namespace SharedCache

/-- What the slot at an address holds. -/
def content (shared : SharedCache) (address : Nat) : Slot :=
  match shared.begun address with
  | none => .vacant
  | some number =>
    match (shared.cache.started[number]?).bind (·.outcome) with
    | none => .inProgress number
    | some outcome => .filled number outcome

/-- What is known about a key, looked up through the slots. -/
def slot (shared : SharedCache) (key : String) : Slot :=
  match shared.slots.idxOf? key with
  | none => .vacant
  | some address => shared.content address

/-- The number and outcome stored under `key`, looked up through the slots. -/
def get? (shared : SharedCache) (key : String) : Option (Nat × DetectionOutcome) :=
  match shared.slot key with
  | .filled number outcome => some (number, outcome)
  | _ => none

def openSlot (shared : SharedCache) (key : String) : SharedCache :=
  { shared with slots := Workshop.openSlot shared.slots key }

/-- Starts the computation of `key` in the slot at an address. -/
def start (shared : SharedCache) (address : Nat) (key : String) : SharedCache where
  slots := shared.slots
  begun other := if other = address then some shared.cache.computations else shared.begun other
  cache := shared.cache.start key

/-- Stores the outcome of the computation with the given number. -/
def store (shared : SharedCache) (number : Nat) (outcome : DetectionOutcome) : SharedCache :=
  { shared with cache := shared.cache.store number outcome }

end SharedCache

namespace Workshop

/-- Workers that are about to carry out look-ups on a cache that nobody has used. -/
def fresh (lookups : List Lookup) : Workshop where
  shared := {}
  workers := lookups.map Worker.of

def cache (workshop : Workshop) : DetectionCache := workshop.shared.cache

/-- A worker whose innermost look-up is answered by `number`. -/
def resume (number : Nat) : List Frame → Worker
  | [] => .returned number
  | frame :: rest => .busy (frame :: rest)

/-- One step of a worker with the given frames; `none` if it has to wait. -/
def advance (shared : SharedCache) : List Frame → Option (SharedCache × Worker × List WorkEvent)
  | [] => none
  | frame :: rest =>
    match frame.stage with
    | .seeking =>
      let opened := shared.openSlot frame.lookup.key
      some (opened, .busy (⟨frame.lookup, .atSlot (opened.slots.idxOf frame.lookup.key)⟩ :: rest),
        [])
    | .atSlot address =>
      match shared.content address with
      | .filled number _ => some (shared, resume number rest, [.answered frame.lookup number])
      | .inProgress _ => none
      | .vacant =>
        some (shared.start address frame.lookup.key,
          .busy (⟨frame.lookup, .computing shared.cache.computations frame.lookup.nested⟩ :: rest),
          [.started frame.lookup])
    | .computing number [] =>
      some (shared.store number frame.lookup.outcome, resume number rest,
        [.answered frame.lookup number])
    | .computing number (next :: remaining) =>
      some (shared,
        .busy (⟨next, .seeking⟩ :: ⟨frame.lookup, .computing number remaining⟩ :: rest), [])

/-- One step of the worker with the given index, if it is busy and need not wait. -/
def step (workshop : Workshop) (index : Nat) : Option Workshop :=
  match workshop.workers[index]? with
  | some (.busy frames) =>
    (advance workshop.shared frames).map fun (shared, worker, events) =>
      ⟨shared, workshop.workers.set index worker, workshop.history ++ events⟩
  | _ => none

/-- The workshop after steps of the given workers in turn; a worker that cannot step is passed
over. -/
def run (workshop : Workshop) (schedule : List Nat) : Workshop :=
  schedule.foldl (fun current index => (current.step index).getD current) workshop

/-- The numbers of the outcomes that workers have returned with. -/
def answers (workshop : Workshop) : List Nat :=
  workshop.workers.filterMap fun
    | .returned number => some number
    | .busy _ => none

end Workshop

end TestSelection
