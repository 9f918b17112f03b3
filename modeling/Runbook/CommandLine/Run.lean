import Runbook.CommandLine.Options
import Runbook.Run.Engine
/-!
# Running command lines

* `collectVariables` — the variables of files in their order, and over them those of the command
  line;
* `runScenario` — loads a scenario and runs it;
* `run` — what a command line does: its exit code and the world it leaves, with what it has
  written.

A run that fails says why behind an empty line.
-/

namespace Runbook.CommandLine

/-- The exit code of a command line, and the world it leaves. -/
structure Outcome where
  code : Nat
  world : World

/-- Write a text to a sink. -/
def print (sink : Sink) (text : String) (w : World) : World :=
  w.put sink (Text.Utf8.ofString text)

/-- End with an error. -/
def fail (message : String) (w : World) : Outcome :=
  { code := 1, world := print .stderr ("\nError: " ++ message ++ "\n") w }

/-- Load the variables of files over those of files before them. -/
def loadVariableFiles : List String → Namespace → World → Except ScenarioError Namespace × World
  | [], vars, w => (.ok vars, w)
  | path :: rest, vars, w =>
    let w := w.log .info ("Loading variables: " ++ path)
    match Namespace.load w.files.disk path with
    | .ok more => loadVariableFiles rest (vars.insertAll more) w
    | .error e => (.error e, w)

/-- The variables that a run starts with. -/
def collectVariables (options : Options) (w : World) : Except ScenarioError Namespace × World :=
  let (loaded, w) := loadVariableFiles options.variableFiles [] w
  (loaded.map fun vars => vars.insertAll (options.assignments.map fun (k, v) => (k, .str v)), w)

/-- What the engine of a command line shares: files come from the disk, and included ones from a
directory of it. -/
def setup (includeRoot : String) : Setup :=
  { registry := Registry.builtin.register "include" (.includeFile (.directory includeRoot) "")
    fileSystem := .disk
    textFunctions := true }

/-- Show the variables of a run if they are asked for. -/
def printVariables (options : Options) (s : State) : World :=
  if options.printVariables then print .stdout ((Value.obj s.vars).pretty ++ "\n") s.world
  else s.world

/-- Run steps, and show the variables they leave. -/
def runSteps (options : Options) (engine : Engine) (s : State) : Outcome :=
  let s := s.log .info ("Scenario loaded: " ++ Text.natText engine.steps.length ++ " steps")
  let (result, s) := engine.execute s
  let w := printVariables options s
  match result with
  | .ok () => { code := 0, world := w.log .info "Scenario completed" }
  | .error failure => fail failure.message w

/-- Run the scenario of a document. -/
def runScenario (options : Options) (path : String) (scenario : Scenario) (s : State) : Outcome :=
  let s := s.log .debug
    ("Loaded scenario " ++ path ++ " (" ++ Text.natText scenario.commands.length ++ " steps)")
  let root := options.includeRoot path
  let s := s.log .info ("Include directory: " ++ root)
  let engine : Engine := { setup := setup root }
  match engine.appendCommands scenario.commands with
  | .error e => fail e.message s.world
  | .ok engine => runSteps options engine (s.log .debug (loadedNotice engine.steps))

/-- Load a scenario and run it. -/
def start (options : Options) (path : String) (w : World) : Outcome :=
  match collectVariables options w with
  | (.error e, w) => fail e.message w
  | (.ok vars, w) =>
    let w := w.log .info ("Loading scenario: " ++ path)
    match Scenario.load w.files.disk path with
    | .error e =>
      let w := w.log .error ("Failed to load scenario: " ++ e.message)
      fail ("Could not load scenario from '" ++ path ++ "': " ++ e.message) w
    | .ok scenario => runScenario options path scenario { vars, world := w }

/-- The least important level that is shown. -/
def Options.shownLevel (options : Options) : Level :=
  if options.verbose then .debug else .info

/-- What a command line does. -/
def run (arguments : List String) (w : World) : Outcome :=
  match parse arguments with
  | .showUsage => { code := 0, world := print .stdout usage w }
  | .showVersion => { code := 0, world := print .stdout versionLine w }
  | .refuse complaint =>
    fail complaint (print .stdout usage (print .stderr ("Error: " ++ complaint ++ "\n\n") w))
  | .run options path => start options path { w with shown := some options.shownLevel }

end Runbook.CommandLine
