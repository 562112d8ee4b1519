import TestSelection.CommandLine.Basic
import TestSelection.Text.Pieces

/-!
Reading a command line. Arguments are read from left to right. The value of an option is looked at
when the next option or argument is understood, so an argument that is not understood is reported
before a wrong value in front of it. An option may be given once before the command and once behind
it, where the later one counts; an environment variable stands in where neither was given.
-/

namespace TestSelection.CommandLine

/-- What has been given on one level. The option given last waits for its value, or has one that
has not been looked at yet. -/
structure Given where
  values : List (Flag × String) := []
  waiting : Option (Flag × Option String) := none
  tests : List String := []
  noColor : Bool := false

def outputOf? : String → Option OutputFormat
  | "text" => some .text
  | "json" => some .json
  | _ => none

/-- The fault of a value that an option does not take. -/
def valueFault? (flag : Flag) (value : String) : Option UsageFault :=
  if value = "" && (flag.isPath || flag = .output) then some (.missingValue flag)
  else if flag = .output && (outputOf? value).isNone then some (.invalidValue flag value)
  else none

namespace Given

def accept (given : Given) (flag : Flag) (value : String) : Except Stop Given :=
  if (given.values.lookup flag).isSome then .error (.fault (.repeated flag))
  else
    match valueFault? flag value with
    | some fault => .error (.fault fault)
    | none => .ok { given with values := given.values ++ [(flag, value)] }

/-- Looks at the option that is waiting. -/
def settle (given : Given) : Except Stop Given :=
  match given.waiting with
  | none => .ok given
  | some (flag, none) => .error (.fault (.missingValue flag))
  | some (flag, some value) => { given with waiting := none }.accept flag value

/-- Understands an option, with the value that is written together with it. -/
def take (given : Given) (level : Level) (flag : Flag) (attached : Option String) :
    Except Stop Given :=
  if flag.valueName?.isSome then
    given.settle.bind fun settled =>
      match attached with
      | some value => settled.accept flag value
      | none => .ok { settled with waiting := some (flag, none) }
  else
    match attached with
    | some value => .error (.fault (.surplusValue flag value))
    | none =>
      given.settle.bind fun settled =>
        match flag with
        | .help => .error (.help (match level with
            | .top => .program | .changes => .changes | .select => .select))
        | .version => .error (.version level)
        | _ =>
          if settled.noColor then .error (.fault (.repeated flag))
          else .ok { settled with noColor := true }

/-- Understands options given by their letters; the letter of an option with a value takes the
rest as its value. -/
def takeLetters (level : Level) : List Char → Given → Except Stop Given
  | [], given => .ok given
  | c :: rest, given =>
    match Flag.all.find? fun flag => flag.letter? = some c && flag.isKnown level with
    | none => .error (.fault (.unknownArgument (String.ofList ['-', c])))
    | some flag =>
      if flag.valueName?.isSome then
        match rest with
        | [] => given.take level flag none
        | '=' :: value => given.take level flag (some (String.ofList value))
        | value => given.take level flag (some (String.ofList value))
      else (given.take level flag none).bind (takeLetters level rest)

/-- Understands an option given by its long name, after its dashes. -/
def takeLong (level : Level) (text : List Char) (given : Given) : Except Stop Given :=
  let (name, attached) :=
    match Text.cutFirst '=' text with
    | some (name, value) => (String.ofList name, some (String.ofList value))
    | none => (String.ofList text, none)
  match Flag.all.find? fun flag => flag.longName = name && flag.isKnown level with
  | none => .error (.fault (.unknownArgument ("--" ++ name)))
  | some flag => given.take level flag attached

/-- An argument that is no option: the value of the option before it, or a test. -/
def takeWord (level : Level) (bare : Bool) (word : String) (given : Given) :
    Except Stop Given :=
  match given.waiting, bare with
  | some (flag, none), false => .ok { given with waiting := some (flag, some word) }
  | _, _ =>
    match level with
    | .select => given.settle.map fun settled => { settled with tests := settled.tests ++ [word] }
    | .changes => .error (.fault (.unknownArgument word))
    | .top =>
      if bare && ["changes", "select", "help"].contains word then
        .error (.fault (.unknownArgument word))
      else .error (.fault (.unknownCommand word))

/-- Takes the values of environment variables for the options that were not given, once all
arguments are read. -/
def finish (environment : Environment) (given : Given) : Except Stop Given :=
  given.settle.bind fun settled =>
    [Flag.config, .detector, .referenceCommit].foldlM (fun filled flag =>
      if (settled.values.lookup flag).isSome then .ok filled
      else
        match (flag.environmentName?.bind fun name => environment.lookup name) with
        | none => .ok filled
        | some value =>
          match valueFault? flag value with
          | some fault => .error (.fault fault)
          | none => .ok filled) settled

end Given

/-- Reads one argument behind a command. -/
def takeArgument (level : Level) (argument : String) (given : Given) : Except Stop Given :=
  match argument.toList with
  | '-' :: '-' :: name => given.takeLong level name
  | '-' :: c :: letters => given.takeLetters level (c :: letters)
  | _ => given.takeWord level false argument

/-- Reads all arguments behind a command. After two dashes no argument is an option. -/
def takeAll (level : Level) : List String → Given → Except Stop Given
  | [], given => .ok given
  | "--" :: rest, given =>
    rest.foldlM (fun (given : Given) word => given.takeWord level true word) given
  | argument :: rest, given => (takeArgument level argument given).bind (takeAll level rest)

def commandOf (level : Level) (given : Given) : Except Stop (Option Command) :=
  let output := ((given.values.lookup .output).bind outputOf?).getD .text
  match level with
  | .top => .ok none
  | .changes => .ok (some (.changes output given.noColor))
  | .select =>
    if given.tests.isEmpty then .error (.fault .missingTests)
    else .ok (some (.select given.tests (given.values.lookup .graph) output given.noColor))

/-- The value of an option: behind the command, or before it, or from the environment. -/
def valueOf (environment : Environment) (outer inner : Given) (flag : Flag) : Option String :=
  (inner.values.lookup flag).or
    ((outer.values.lookup flag).or (flag.environmentName?.bind fun name => environment.lookup name))

def invocationOf (environment : Environment) (outer inner : Given) (command : Option Command) :
    Invocation :=
  let value := valueOf environment outer inner
  ⟨value .config, value .repo, value .detector, value .referenceCommit, command⟩

/-- Reads the arguments behind a command, then looks at what was given before it. -/
def readCommand (environment : Environment) (level : Level) (outer : Given)
    (arguments : List String) : Except Stop Invocation :=
  (takeAll level arguments {}).bind fun given =>
  (given.finish environment).bind fun inner =>
  (commandOf level inner).bind fun command =>
  (outer.finish environment).map fun outer => invocationOf environment outer inner command

/-- The topic that the words behind `help` ask about. -/
def helpTopic : List String → Except Stop Invocation
  | [] => .error (.help .program)
  | ["changes"] => .error (.help .changes)
  | ["select"] => .error (.help .select)
  | ["help"] => .error (.help .help)
  | first :: rest =>
    let unknown := if ["changes", "select", "help"].contains first then rest.headD first else first
    .error (.fault (.unknownCommand unknown))

/-- Reads arguments up to a command. -/
def readTop (environment : Environment) : List String → Given → Except Stop Invocation
  | [], given =>
    (given.finish environment).map fun outer => invocationOf environment outer {} none
  | "--" :: rest, given =>
    let taken := rest.foldlM (fun (given : Given) word => given.takeWord .top true word) given
    taken.bind fun given =>
      (given.finish environment).map fun outer => invocationOf environment outer {} none
  | argument :: rest, given =>
    let expectsValue := match given.waiting with
      | some (_, none) => true
      | _ => false
    if !expectsValue && argument = "changes" then readCommand environment .changes given rest
    else if !expectsValue && argument = "select" then readCommand environment .select given rest
    else if !expectsValue && argument = "help" then helpTopic rest
    else (takeArgument .top argument given).bind (readTop environment rest)

/-- The invocation that arguments, without the name of the program, stand for. -/
def parse (environment : Environment) (arguments : List String) : Except Stop Invocation :=
  readTop environment arguments {}

end TestSelection.CommandLine
