import TestSelection.Change.Basic
import TestSelection.Text.Pieces

/-!
Source layouts. A layout names the directories below which production and test units live, as
runs of whole path segments, and the suffix of a source file. The identity of a unit is the
dotted list of directories below its source root followed by the file name without the suffix.
The source root that ends last in a path wins; where both kinds end together, production does.
-/

namespace TestSelection

/-- The path that stands for the missing side of an addition or a deletion. -/
def absentPath : String := "/dev/null"

def isAbsent (path : String) : Bool := path = absentPath

structure SourceLayout where
  mainMarker : List String
  testMarker : List String
  suffix : String
  deriving Repr, DecidableEq

namespace SourceLayout

def defaultMain : String := "src/main/java"

def defaultTest : String := "src/test/java"

def defaultSuffix : String := ".java"

def isPathSeparator (c : Char) : Bool := c = '/' || c = '\\'

def isMarkerSeparator (c : Char) : Bool := isPathSeparator c || c = '.'

def ofTexts (main test suffix : String) : SourceLayout :=
  ⟨Text.names isMarkerSeparator main, Text.names isMarkerSeparator test, suffix⟩

def default : SourceLayout := ofTexts defaultMain defaultTest defaultSuffix

instance : Inhabited SourceLayout := ⟨default⟩

/-- What follows the last occurrence of a non-empty `marker` as a run of whole segments. -/
def afterLast (marker : List String) : List String → Option (List String)
  | [] => none
  | segment :: rest =>
    match afterLast marker rest with
    | some found => some found
    | none =>
      if marker ≠ [] && marker.isPrefixOf (segment :: rest) then
        some ((segment :: rest).drop marker.length)
      else none

/-- The identity of the file below a source root, if the file carries the source suffix. -/
def identity? (suffix : String) (below : List String) : Option String :=
  match below.getLast? with
  | none => none
  | some file =>
    match Text.dropEnd? suffix.toList file.toList with
    | none => none
    | some [] => none
    | some stem => some (Text.joinWith "." (below.dropLast ++ [String.ofList stem]))

/-- The kind and identity of the unit at the given path segments. The shorter of two remainders
belongs to the source root that ends later. -/
def unit? (layout : SourceLayout) (segments : List String) : Option Change :=
  let unitBelow (kind : String → Change) (below : List String) :=
    (identity? layout.suffix below).map kind
  match afterLast layout.mainMarker segments, afterLast layout.testMarker segments with
  | some main, some test =>
    if test.length < main.length then unitBelow .testCompilationUnit test
    else unitBelow .compilationUnit main
  | some main, none => unitBelow .compilationUnit main
  | none, some test => unitBelow .testCompilationUnit test
  | none, none => none

def pathSegments (path : String) : List String := Text.names isPathSeparator path

/-- The change that a reported path stands for; the absent side and the empty path stand for
none. -/
def classify (layout : SourceLayout) (path : String) : Option Change :=
  if isAbsent path || path = "" then none
  else some ((layout.unit? (pathSegments path)).getD (.otherFile path))

def changes (layout : SourceLayout) (paths : List String) : ChangeSet :=
  ChangeSet.ofList (paths.filterMap layout.classify)

end SourceLayout

end TestSelection
