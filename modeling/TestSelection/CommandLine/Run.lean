import TestSelection.CommandLine.Candidates
import TestSelection.CommandLine.Help
import TestSelection.CommandLine.Parse
import TestSelection.Log.Filter
import TestSelection.Module.Stored
import TestSelection.Report.Selection
import TestSelection.Session

/-!
Carrying out a command line. What a command writes and its exit code follow from the arguments, the
environment, the files, the input and what the repository answers. Detection starts only after
everything that can be refused has been looked at. To list changes without knowing them is a
failure; to select tests without knowing them is not, for then every test runs.
-/

namespace TestSelection

/-- What a command finds around it. -/
structure Surroundings where
  environment : Environment
  files : FileSystem
  input : Bytes := []
  /-- Why the input ends before its end, if it does. -/
  inputFault : Option ReadFault := none
  /-- Whether a terminal shows the output. -/
  terminal : Bool := false
  /-- What the repository around a directory answers. -/
  reader : String → BaselineReader

/-- What a command tells beside its output. -/
inductive Notice
  | logged (line : LogLine)
  | told (text : String)
  deriving Repr, DecidableEq

structure CommandResult where
  exitCode : ExitCode := .success
  output : String := ""
  notices : List Notice := []

namespace CommandResult

/-- The text of what is told, as far as the filter lets it through. -/
def errorText (result : CommandResult) (filter : LogFilter) : String :=
  String.join (result.notices.map fun
    | .logged line => if filter.shows line then line.text ++ "\n" else ""
    | .told text => text ++ "\n")

end CommandResult

namespace Surroundings

def directory (around : Surroundings) : String :=
  Text.ofBytes (FileSystem.pathOf around.files.here)

def has (around : Surroundings) (name : String) : Bool :=
  (around.environment.lookup name).isSome

/-- Environment variables that say that a program reads the output. -/
def agentNames : List String := ["CLAUDE_CODE", "CODEX", "CURSOR", "CI"]

/-- Whether the output is in colour. A wish in the environment goes before what the output is. -/
def isColoured (around : Surroundings) (noColor : Bool) : Bool :=
  let isPlainTerminal := (around.environment.lookup "TERM").getD "dumb" = "dumb"
  !noColor && !around.has "NO_COLOR" &&
    (around.has "COLOR" ||
      around.terminal && !agentNames.any around.has && !isPlainTerminal)

end Surroundings

namespace CommandLine

def logged (log : List LogLine) : List Notice := log.map Notice.logged

def announced (message : String) : Notice := .told ("modgate: " ++ message)

/-- The end of a command that is not carried out. -/
def refused (notices : List Notice) (refusal : Refusal) : CommandResult :=
  ⟨refusal.exitCode, "", notices ++ [announced refusal.message]⟩

/-- What is told about keys without a meaning in a settings file. -/
def warnings (found : FoundSettings) : List Notice :=
  let path := found.path.getD ""
  found.unknown.map fun key =>
    announced s!"warning: {path}: unrecognized field \x60{key}\x60 (ignored)"

/-- The session of an invocation, with what is told while it starts. -/
def startSession (around : Surroundings) (invocation : Invocation) :
    List Notice × Except Failure Session :=
  let root := Session.rootOf invocation around.directory
  let found := Session.findSettings around.files invocation root
  match found.value with
  | .error failure => (logged found.log, .error failure)
  | .ok settings =>
    let started := Session.ofSettings invocation root settings
    (logged found.log ++ warnings settings ++ logged started.log, started.value)

def rendered (around : Surroundings) (output : OutputFormat) (noColor : Bool) (json : Json)
    (spans : List Span) : String :=
  match output with
  | .json => json.document
  | .text => Styled.written (around.isColoured noColor) spans

/-- Lists the changes that the source of a session reports. -/
def listChanges (around : Surroundings) (session : Session) (output : OutputFormat)
    (noColor : Bool) : CommandResult :=
  let selector := session.selector
  let detected := selector.outcome (around.reader selector.root) {}
  match detected.value.1 with
  | .failed error =>
    ⟨.detectionFailed, "",
      logged detected.log ++ [announced s!"detection error: {error.message}"]⟩
  | .changes set =>
    let report : ChangesReport := ⟨selector.source.description, set⟩
    ⟨.success, rendered around output noColor report.toJson set.spans, logged detected.log⟩

/-- The module graph of a session, from the file given in the command or else in the settings, with
what is told while it is read. -/
def readGraph (around : Surroundings) (session : Session) (given : Option String) :
    List Notice × Except Failure ModuleGraph :=
  match (given.map (Path.join around.directory)).or session.config.graphPath with
  | none => ([], .error (.argument .noGraph))
  | some path =>
    if around.files.isFile path then
      match ModuleGraph.load around.files path with
      | .error failure => ([], .error failure)
      | .ok graph =>
        (logged [⟨.graph, .debug, s!"loaded {graph.size} modules from {path}"⟩], .ok graph)
    else ([], .error (.argument (.graphNotFound path)))

/-- Reports which of the candidates run. -/
def selectTests (around : Surroundings) (session : Session) (graph : ModuleGraph)
    (candidates : List TestCandidate) (output : OutputFormat) (noColor : Bool) : CommandResult :=
  let selector := session.selector
  let decided := selector.decideAll (around.reader selector.root) graph {} candidates
  let report := selector.report decided.value.2 decided.value.1
  let warning := report.detectionError.toList.map fun error =>
    announced s!"warning: change detection failed, running all tests: {error}"
  ⟨.success, rendered around output noColor report.toJson report.spans,
    logged decided.log ++ warning⟩

/-- The result with more told in front. -/
def after (notices : List Notice) (result : CommandResult) : CommandResult :=
  { result with notices := notices ++ result.notices }

def runSelect (around : Surroundings) (session : Session) (tests : List String)
    (graph : Option String) (output : OutputFormat) (noColor : Bool) : CommandResult :=
  let (notices, loaded) := readGraph around session graph
  match loaded with
  | .error failure => refused notices (.failure failure)
  | .ok graph =>
    match readCandidates (inputLines around.input around.inputFault) tests with
    | .error refusal => refused notices refusal
    | .ok candidates =>
      after notices (selectTests around session graph candidates output noColor)

/-- Carries out what an invocation asks for; without a command that is help. -/
def runInvocation (around : Surroundings) (invocation : Invocation) : CommandResult :=
  match invocation.command with
  | none => ⟨.success, helpText around.environment .program ++ "\n", []⟩
  | some command =>
    let (notices, started) := startSession around invocation
    match started with
    | .error failure => refused notices (.failure failure)
    | .ok session =>
      after notices <|
        match command with
        | .changes output noColor => listChanges around session output noColor
        | .select tests graph output noColor => runSelect around session tests graph output noColor

/-- Carries out a command line. -/
def run (around : Surroundings) (arguments : List String) : CommandResult :=
  match parse around.environment arguments with
  | .ok invocation => runInvocation around invocation
  | .error (.help topic) => ⟨.success, helpText around.environment topic, []⟩
  | .error (.version level) => ⟨.success, versionText level, []⟩
  | .error (.fault fault) => ⟨.invalidInput, "", [.told ("error: " ++ fault.message)]⟩

/-- The filter for the log, which is off unless the environment says otherwise. -/
def filterOf (environment : Environment) : LogFilter :=
  ((environment.lookup "MODGATE_LOG").map LogFilter.ofText).getD {}

end CommandLine

end TestSelection
