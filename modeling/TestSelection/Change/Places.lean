import TestSelection.Change.Layout

/-!
The classification of a path by counting its segments. A marker is looked for at one place after the
other, from the last place at which it has room down to the first, and the segments are cut behind
the place at which it stands. To count below zero is a fault, and so is to cut out a part that the
segments do not have.
-/

namespace TestSelection

/-- What goes wrong where a list is counted or cut beyond its ends. -/
inductive PlaceFault
  | belowZero (count taken : Nat)
  | outside (start stop size : Nat)
  deriving Repr, DecidableEq

namespace SourceLayout

def difference (count taken : Nat) : Except PlaceFault Nat :=
  if taken ≤ count then .ok (count - taken) else .error (.belowZero count taken)

/-- The segments from the place `start` on, up to the place `stop`, which is left out. -/
def part (segments : List String) (start stop : Nat) : Except PlaceFault (List String) :=
  if start ≤ stop ∧ stop ≤ segments.length then .ok ((segments.take stop).drop start)
  else .error (.outside start stop segments.length)

/-- Whether the segments from the place `start` on are those of `marker`. -/
def standsAt (marker segments : List String) (start : Nat) : Except PlaceFault Bool :=
  (part segments start (start + marker.length)).map fun found =>
    (found.zip marker).all fun (segment, expected) => segment = expected

/-- The place behind the last occurrence of a non-empty `marker`. -/
def markerEnd? (marker segments : List String) : Except PlaceFault (Option Nat) :=
  if marker.isEmpty || segments.length < marker.length then .ok none
  else
    (difference segments.length marker.length).bind fun last =>
      ((List.range (last + 1)).reverse.findM? (standsAt marker segments)).map fun found =>
        found.map fun start => start + marker.length

/-- The change that a path stands for, read with places that are counted. -/
def classifyByPlaces (layout : SourceLayout) (path : String) :
    Except PlaceFault (Option Change) :=
  if isAbsent path || path = "" then .ok none
  else
    let segments := pathSegments path
    let unitFrom (kind : String → Change) (start : Nat) : Except PlaceFault (Option Change) :=
      (part segments start segments.length).map fun below =>
        some (((identity? layout.suffix below).map kind).getD (.otherFile path))
    (markerEnd? layout.mainMarker segments).bind fun main =>
      (markerEnd? layout.testMarker segments).bind fun test =>
        match main, test with
        | some main, some test =>
          if main < test then unitFrom .testCompilationUnit test
          else unitFrom .compilationUnit main
        | some main, none => unitFrom .compilationUnit main
        | none, some test => unitFrom .testCompilationUnit test
        | none, none => .ok (some (.otherFile path))

end SourceLayout

end TestSelection
