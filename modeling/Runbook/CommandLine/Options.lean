import Runbook.Text.Blank
/-!
# Command lines

* `Options` — what the arguments of a command line ask for;
* `Request` — a run with options, the usage or the version, or a complaint;
* `Options.parse` — reads arguments from left to right; help and version end the reading;
* `usage`, `versionLine` — the texts that are shown for them.
-/

namespace Runbook.CommandLine

/-- What a command line asks for; `assignments` and `variableFiles` are in their order. -/
structure Options where
  scenarioPath : Option String := none
  assignments : List (String × String) := []
  variableFiles : List String := []
  includeDirectory : Option String := none
  printVariables : Bool := false
  verbose : Bool := false
deriving DecidableEq, Repr

/-- What is to be done about a command line. -/
inductive Request where
  | run (options : Options) (scenarioPath : String)
  | showUsage
  | showVersion
  | refuse (complaint : String)
deriving DecidableEq, Repr

/-- A key and a value separated by the first equals sign; the key is not empty. -/
def assignment? (text : String) : Option (String × String) :=
  match Text.splitAtFirst? (· == '=') text.toList with
  | some (c :: key, value) => some (String.ofList (c :: key), String.ofList value)
  | _ => none

/-- The complaint about an option that needs a path. -/
def pathNeeded (option : String) : Request :=
  .refuse (option ++ " requires a path argument")

/-- An argument that is no option of its own. -/
def Options.positional (options : Options) (arg : String) : Except String Options :=
  if arg.toList.head? = some '-' then .error ("Unknown option: " ++ arg)
  else if options.scenarioPath.isSome then .error ("Unexpected argument: " ++ arg)
  else .ok { options with scenarioPath := some arg }

/-- Read arguments after those that gave the options. -/
def Options.parse (options : Options) : List String → Request
  | [] =>
    match options.scenarioPath with
    | some path => .run options path
    | none => .refuse "missing <SCENARIO_FILE>"
  | "--help" :: _ | "-h" :: _ => .showUsage
  | "--version" :: _ | "-V" :: _ => .showVersion
  | "--verbose" :: rest | "-v" :: rest => parse { options with verbose := true } rest
  | "--print-vars" :: rest => parse { options with printVariables := true } rest
  | ["--var"] => .refuse "--var requires a KEY=VALUE argument"
  | "--var" :: pair :: rest =>
    match assignment? pair with
    | some entry => parse { options with assignments := options.assignments ++ [entry] } rest
    | none => .refuse ("Invalid variable (expected KEY=VALUE): " ++ pair)
  | ["--vars-file"] => pathNeeded "--vars-file"
  | "--vars-file" :: path :: rest =>
    parse { options with variableFiles := options.variableFiles ++ [path] } rest
  | ["--include-dir"] => pathNeeded "--include-dir"
  | "--include-dir" :: path :: rest => parse { options with includeDirectory := some path } rest
  | arg :: rest =>
    match options.positional arg with
    | .ok options => parse options rest
    | .error complaint => .refuse complaint

/-- Read a command line. -/
def parse (arguments : List String) : Request :=
  Options.parse {} arguments

/-- The lines that say how the program is called. -/
def usageLines : List String :=
  ["Usage: stepflow [OPTIONS] <SCENARIO_FILE>",
    "",
    "Arguments:",
    "  <SCENARIO_FILE>      Path to a JSON or YAML scenario",
    "",
    "Options:",
    "  --var KEY=VALUE      Set a variable (repeatable)",
    "  --vars-file FILE     Load variables from a JSON or YAML mapping (repeatable)",
    "  --include-dir DIR    Base directory for included scenarios",
    "                       (default: the scenario's directory)",
    "  --print-vars         Print the final variables as JSON",
    "  --verbose            Enable debug logging",
    "  --help               Show this help message",
    "  --version            Show version information",
    "",
    "Examples:",
    "  stepflow deploy.yaml",
    "  stepflow deploy.yaml --var env=staging --print-vars"]

/-- How the program is called. -/
def usage : String :=
  String.join (usageLines.map (· ++ "\n"))

/-- The name and the version of the program. -/
def versionLine : String :=
  "Stepflow 0.1.0\n"

/-! ### Directories -/

/-- Drop the slashes and the dots at the end of a path that is given in reverse. -/
def trimReversed : List Char → List Char
  | '/' :: c :: rest => trimReversed (c :: rest)
  | '.' :: '/' :: rest => trimReversed ('/' :: rest)
  | cs => cs

/-- The directory of a path; none if the path has no last component. -/
def parent? (path : String) : Option String :=
  let trimmed := trimReversed path.toList.reverse
  if trimmed = [] ∨ trimmed = ['/'] then none
  else some (String.ofList (trimReversed (trimmed.dropWhile (· != '/'))).reverse)

/-- The directory under which included files are looked up. -/
def Options.includeRoot (options : Options) (scenarioPath : String) : String :=
  match options.includeDirectory with
  | some directory => directory
  | none =>
    match parent? scenarioPath with
    | some directory => if directory = "" then "." else directory
    | none => "."

end Runbook.CommandLine
