import TestSelection.CommandLine.Basic

/-!
The texts shown on request: help on the program or on one of its commands, and the version. An
option that an environment variable can stand in for names it with its present value.
-/

namespace TestSelection.CommandLine

/-- The explanation of an option. -/
def explanation : Flag → String
  | .config => "Use specific config file"
  | .repo => "Repository to inspect (default: current directory)"
  | .detector => "Change detector to use (uncommitted, unpushed, diff)"
  | .referenceCommit => "Compare HEAD against this revision (e.g., origin/main, v1.2, HEAD~3)"
  | .graph => "Module graph description (overrides [graph] path)"
  | .output => "Output format [default: text] [possible values: text, json]"
  | .noColor => "Disable color output"
  | .help => "Print help"
  | .version => "Print version"

def variableNote (environment : Environment) (flag : Flag) : String :=
  match flag.environmentName? with
  | none => ""
  | some name => " [env: " ++ name ++ "=" ++ (environment.lookup name).getD "" ++ "]"

/-- The line of an option: its letter, its name and value, and its explanation in a column. -/
def optionLine (environment : Environment) (flag : Flag) : String :=
  let letter := (flag.letter?.map fun c => String.ofList ['-', c, ',', ' ']).getD "    "
  let name := flag.shown
  "  " ++ letter ++ name ++ String.ofList (List.replicate (26 - name.length) ' ') ++
    explanation flag ++ variableNote environment flag

def optionLines (environment : Environment) (flags : List Flag) : List String :=
  "Options:" :: flags.map (optionLine environment)

def helpLines (environment : Environment) : Topic → List String
  | .program =>
    ["Skip tests whose modules did not change since a git baseline", "",
      "Usage: modgate [OPTIONS] [COMMAND]", "", "Commands:",
      "  changes  List the changes the selected detector reports",
      "  select   Decide run or skip for test classes",
      "  help     Print this message or the help of the given subcommand(s)", ""] ++
    optionLines environment [.config, .repo, .detector, .referenceCommit, .help, .version]
  | .changes =>
    ["List the changes the selected detector reports", "", "Usage: modgate changes [OPTIONS]",
      ""] ++
    optionLines environment
      [.config, .output, .noColor, .repo, .detector, .referenceCommit, .help, .version]
  | .select =>
    ["Decide run or skip for test classes", "", "Usage: modgate select [OPTIONS] <TEST>...", "",
      "Arguments:",
      "  <TEST>...  Test classes or methods (a.b.OrderTest, a.b.OrderTest#method); \x60-\x60 " ++
        "reads stdin", ""] ++
    optionLines environment
      [.config, .graph, .output, .repo, .detector, .noColor, .referenceCommit, .help, .version]
  | .help =>
    ["Print this message or the help of the given subcommand(s)", "",
      "Usage: modgate help [COMMAND]...", "", "Arguments:",
      "  [COMMAND]...  Print help for the subcommand(s)"]

def helpText (environment : Environment) (topic : Topic) : String :=
  String.join ((helpLines environment topic).map (· ++ "\n"))

def versionText : Level → String
  | .top => "modgate 0.1.0\n"
  | .changes => "modgate-changes 0.1.0\n"
  | .select => "modgate-select 0.1.0\n"

end TestSelection.CommandLine
