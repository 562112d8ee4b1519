/-!
Command lines. An invocation names a command or none, with options that may stand before or behind
the command; an option has a long name, and some have a letter. What cannot be understood is a
usage fault, and asking for help or for the version ends reading at once.
-/

namespace TestSelection

inductive OutputFormat
  | text
  | json
  deriving Repr, DecidableEq

inductive Command
  | changes (output : OutputFormat) (noColor : Bool)
  | select (tests : List String) (graph : Option String) (output : OutputFormat) (noColor : Bool)
  deriving Repr, DecidableEq

structure Invocation where
  config : Option String := none
  repo : Option String := none
  detector : Option String := none
  referenceCommit : Option String := none
  command : Option Command := none
  deriving Repr, DecidableEq

/-- Where options are given: before a command, or behind one. -/
inductive Level
  | top
  | changes
  | select
  deriving Repr, DecidableEq

inductive Flag
  | config
  | repo
  | detector
  | referenceCommit
  | graph
  | output
  | noColor
  | help
  | version
  deriving Repr, DecidableEq

namespace Flag

def all : List Flag :=
  [config, repo, detector, referenceCommit, graph, output, noColor, help, version]

def longName : Flag → String
  | config => "config"
  | repo => "repo"
  | detector => "detector"
  | referenceCommit => "reference-commit"
  | graph => "graph"
  | output => "output"
  | noColor => "no-color"
  | help => "help"
  | version => "version"

def letter? : Flag → Option Char
  | config => some 'C'
  | output => some 'o'
  | help => some 'h'
  | version => some 'V'
  | _ => none

/-- What the value of an option is called, if it takes one. -/
def valueName? : Flag → Option String
  | config => some "CONFIG"
  | repo => some "DIR"
  | detector => some "KEY"
  | referenceCommit => some "REV"
  | graph => some "FILE"
  | output => some "OUTPUT"
  | _ => none

/-- The environment variable that stands in for an option. -/
def environmentName? : Flag → Option String
  | config => some "MODGATE_CONFIG"
  | detector => some "MODGATE_DETECTOR"
  | referenceCommit => some "MODGATE_REFERENCE_COMMIT"
  | _ => none

def isKnown (level : Level) : Flag → Bool
  | graph => level = .select
  | output => level ≠ .top
  | noColor => level ≠ .top
  | _ => true

/-- An option as messages name it. -/
def shown (flag : Flag) : String :=
  "--" ++ flag.longName ++ ((flag.valueName?.map fun name => s!" <{name}>").getD "")

/-- Whether a value is a path, which must not be empty. -/
def isPath : Flag → Bool
  | config | repo | graph => true
  | _ => false

end Flag

inductive UsageFault
  | unknownArgument (argument : String)
  | unknownCommand (name : String)
  | missingValue (flag : Flag)
  | invalidValue (flag : Flag) (value : String)
  | repeated (flag : Flag)
  | surplusValue (flag : Flag) (value : String)
  | missingTests
  deriving Repr, DecidableEq

def UsageFault.message : UsageFault → String
  | unknownArgument argument => s!"unexpected argument '{argument}' found"
  | unknownCommand name => s!"unrecognized subcommand '{name}'"
  | missingValue flag => s!"a value is required for '{flag.shown}' but none was supplied"
  | invalidValue flag value => s!"invalid value '{value}' for '{flag.shown}'"
  | repeated flag => s!"the argument '{flag.shown}' cannot be used multiple times"
  | surplusValue flag value =>
    s!"unexpected value '{value}' for '{flag.shown}' found; no more were expected"
  | missingTests => "the following required arguments were not provided:"

/-- What help is about. -/
inductive Topic
  | program
  | changes
  | select
  | help
  deriving Repr, DecidableEq

/-- Why reading ends without an invocation. -/
inductive Stop
  | help (topic : Topic)
  | version (level : Level)
  | fault (fault : UsageFault)
  deriving Repr, DecidableEq

/-- The values of environment variables. -/
abbrev Environment := List (String × String)

end TestSelection
