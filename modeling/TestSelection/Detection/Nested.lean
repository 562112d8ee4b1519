import TestSelection.Detection.Cache

/-!
Computing an outcome may itself use the cache. What the computation does may depend on all that the
cache has answered to it: which outcomes it asks for, how these are computed in turn, and what
outcome it produces in the end. A diary keeps the cache and tells what has been done with it, in
order. A call is told of when it is made: it is answered at once with what its key holds, or its
computation is started, or it would wait for itself, because its key is that of a call around it.
-/

namespace TestSelection

/-- How an outcome is computed. -/
inductive Plan
  | produce (outcome : DetectionOutcome)
  /-- To ask for the outcome of a key, with a plan for it, and to go on with the answer. -/
  | ask (key : String) (plan : Plan) (next : Nat × DetectionOutcome → Plan)
  /-- To look at what a key holds, if anything. -/
  | look (key : String) (next : Option (Nat × DetectionOutcome) → Plan)
  /-- To look at how many computations have been started. -/
  | count (next : Nat → Plan)

inductive CacheEvent
  | kept (key : String) (number : Nat) (outcome : DetectionOutcome)
  | started (key : String) (number : Nat)
  | waiting (key : String)
  /-- The computation of a key has ended, and the call that started it is answered. -/
  | finished (key : String) (number : Nat) (outcome : DetectionOutcome)
  | looked (key : String) (found : Option (Nat × DetectionOutcome))
  | counted (count : Nat)

/-- A cache, and what has been done with it so far. -/
structure Diary where
  cache : DetectionCache := {}
  history : List CacheEvent := []

namespace Diary

def note (diary : Diary) (event : CacheEvent) : Diary :=
  { diary with history := diary.history ++ [event] }

def start (diary : Diary) (key : String) : Diary where
  cache := diary.cache.start key
  history := diary.history ++ [.started key diary.cache.computations]

def finish (diary : Diary) (key : String) (number : Nat) (outcome : DetectionOutcome) : Diary where
  cache := diary.cache.store number outcome
  history := diary.history ++ [.finished key number outcome]

/-- A call for the outcome of `key`, which is computed by `compute` if none is known yet. There is
no answer if the call, or one that computing makes, would wait for itself. -/
def call (key : String) (compute : Diary → Diary × Option DetectionOutcome) (diary : Diary) :
    Diary × Option (Nat × DetectionOutcome) :=
  match diary.cache.slot key with
  | .filled number outcome => (diary.note (.kept key number outcome), some (number, outcome))
  | .inProgress _ => (diary.note (.waiting key), none)
  | .vacant =>
    match compute (diary.start key) with
    | (after, none) => (after, none)
    | (after, some outcome) =>
      (after.finish key diary.cache.computations outcome,
        some (diary.cache.computations, outcome))

/-- Computes an outcome. -/
def carryOut : Plan → Diary → Diary × Option DetectionOutcome
  | .produce outcome, diary => (diary, some outcome)
  | .ask key plan next, diary =>
    match call key (carryOut plan) diary with
    | (after, none) => (after, none)
    | (after, some answer) => carryOut (next answer) after
  | .look key next, diary =>
    carryOut (next (diary.cache.get? key)) (diary.note (.looked key (diary.cache.get? key)))
  | .count next, diary =>
    carryOut (next diary.cache.computations) (diary.note (.counted diary.cache.computations))

/-- Calls for the outcomes of keys, one after the other, and what they are answered. -/
def callAll : List (String × Plan) → Diary → Diary × Option (List (Nat × DetectionOutcome))
  | [], diary => (diary, some [])
  | (key, plan) :: rest, diary =>
    match call key (carryOut plan) diary with
    | (after, none) => (after, none)
    | (after, some answer) => ((callAll rest after).1, (callAll rest after).2.map (answer :: ·))

end Diary

mutual

/-- The plan of a look-up, whatever it is answered on the way. -/
def Lookup.plan : Lookup → Plan
  | .mk _ outcome nested => Lookup.planAll nested outcome

/-- Look-ups one after the other, and then an outcome. -/
def Lookup.planAll : List Lookup → DetectionOutcome → Plan
  | [], outcome => .produce outcome
  | lookup :: rest, outcome => .ask lookup.key lookup.plan fun _ => planAll rest outcome

end

end TestSelection
