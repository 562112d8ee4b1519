import TestSelection.Detection.Source
import TestSelection.Failure
import TestSelection.Settings.Selection

/-!
The change sources by their keys. A registry holds one factory per key, the one registered last.
A selection picks a source: the detector it names, or else the comparison with the revision it
names, or else the comparison with the tracked branch.
-/

namespace TestSelection

abbrev SourceFactory := Selection → Logged ChangeSource

/-- Factories in ascending order of their keys. -/
structure Registry where
  entries : List (String × SourceFactory)

namespace Registry

def empty : Registry := ⟨[]⟩

def place (key : String) (factory : SourceFactory) :
    List (String × SourceFactory) → List (String × SourceFactory)
  | [] => [(key, factory)]
  | (other, kept) :: rest =>
    if key < other then (key, factory) :: (other, kept) :: rest
    else if other < key then (other, kept) :: place key factory rest
    else (key, factory) :: rest

/-- The registry with `factory` under `key` instead of whatever was there. -/
def register (registry : Registry) (key : String) (factory : SourceFactory) : Registry :=
  ⟨place key factory registry.entries⟩

def keys (registry : Registry) : List String := registry.entries.map (·.1)

def find? (registry : Registry) (key : String) : Option SourceFactory :=
  (registry.entries.find? fun entry => entry.1 = key).map (·.2)

def contains (registry : Registry) (key : String) : Bool := (registry.find? key).isSome

def uncommittedKey : String := "uncommitted"

def unpushedKey : String := "unpushed"

def diffKey : String := "diff"

/-- The revision that `diff` compares with when none is named. -/
def defaultReference : String := "HEAD~1"

/-- The source of the `diff` detector. -/
def diffSource (selection : Selection) : Logged ChangeSource :=
  match selection.referenceCommit? with
  | some revision => Logged.pure (.repository (.revision revision))
  | none =>
    let told := s!"no reference commit configured for `{diffKey}`, using {defaultReference}"
    ⟨.repository (.revision defaultReference), [⟨.choice, .warn, told⟩]⟩

/-- The registry of the sources that read the repository. -/
def builtin : Registry :=
  ((empty.register uncommittedKey fun _ => Logged.pure (.repository .uncommitted)).register
    unpushedKey fun _ => Logged.pure (.repository .unpushed)).register diffKey diffSource

def create (registry : Registry) (key : String) (selection : Selection) :
    Logged (Except Failure ChangeSource) :=
  match registry.find? key with
  | none => Logged.pure (.error (.config (.unknownDetector key registry.keys) none))
  | some factory => (factory selection).bind fun source => Logged.pure (.ok source)

/-- The source that a selection picks. An unknown detector is an error and never a reason to use
another one. -/
def select (registry : Registry) (selection : Selection) : Logged (Except Failure ChangeSource) :=
  match selection.detector? with
  | some key =>
    (registry.create key selection).bind fun
      | .error failure => Logged.pure (.error failure)
      | .ok source =>
        let told := s!"using configured detector `{key}`: {source.description}"
        ⟨.ok source, [⟨.choice, .info, told⟩]⟩
  | none =>
    match selection.referenceCommit? with
    | some revision =>
      ⟨.ok (.repository (.revision revision)),
        [⟨.choice, .info, s!"comparing against reference commit {revision}"⟩]⟩
    | none =>
      ⟨.ok (.repository .unpushed),
        [⟨.choice, .info, "no detector configured, using unpushed changes"⟩]⟩

def text (registry : Registry) : String :=
  "DetectorRegistry \x7b keys: " ++ Text.quotedList registry.keys ++ " \x7d"

end Registry

end TestSelection
