import Runbook.Condition.Functions
import Runbook.Run.Nesting
import Runbook.Run.Remote
import Runbook.Step.Registry
/-!
# Engines

* `Setup` — what an engine shares with the engines inside it: the kinds of steps, the hooks, the
  file system and the functions of conditions;
* `Step.perform` — the action of a step;
* `Setup.checkRequires` — whether a step is skipped;
* `Setup.runStep`, `Setup.runSteps` — one step, and steps up to the first failure;
* `Setup.run` — steps in an engine, which lends itself to the steps that run other steps;
* `Engine` — a setup with the steps that were loaded so far;
* `Loading`, `Engine.append`, `Engine.appendAll` — calls that load steps, one call, and calls one
  after the other.

A failure is reported once, by the innermost engine that sees it: `StepFailure.wrap` leaves a
failure alone that is one already.

## Scope

`limit` bounds how many engines stand inside one another. A step that needs one more fails.
-/

namespace Runbook

/-- A hook, which reads and changes variables and may fail. -/
abbrev Hook := Namespace → Except StepError Unit × Namespace

/-- What engines inside one another share. -/
structure Setup where
  registry : Registry := Registry.builtin
  hooks : List (String × Hook) := []
  fileSystem : FileSystem := .memory
  textFunctions : Bool := false
  versionFunctions : Bool := false
  functions : Condition.Helpers := []

namespace Step

/-- The action of a step. -/
def perform (step : Step) (ctx : Context) : Action :=
  match step.body with
  | .message => Action.done
  | .assign target value => assignAction target value
  | .sleep seconds => sleepAction seconds
  | .password p => passwordAction p
  | .writeFile file contents => writeFileAction ctx step.name file contents
  | .exec exec => execAction ctx step.name step.givenName exec
  | .foreach loop => foreachAction ctx loop
  | .commands commands => runCommands ctx commands
  | .includeFile inclusion => includeAction ctx step.name inclusion
  | .remoteExec exec => remoteExecAction ctx step.name step.givenName exec
  | .remoteFile file => remoteFileAction ctx step.name file

/-- The description of a step over the variables of a run. -/
def describe (step : Step) (vars : Namespace) : String :=
  if step.description = "" then "" else interpolate vars step.description

end Step

/-- The failure of a step; one that is wrapped already stays as it is. -/
def StepFailure.wrap (cause : StepError) (step : Step) (effectiveName : String)
    (vars : Namespace) : StepFailure :=
  match cause with
  | .nested failure => failure
  | cause => .mk cause (step.summary effectiveName) vars

/-- A condition error as a step error. -/
def StepError.ofFault : Condition.Fault → StepError
  | .evaluation message => .evaluation message
  | .definition message => .definition message

/-- The variable that tells whether a step was skipped. -/
def skipKey (effectiveName : String) : String :=
  "__step:" ++ effectiveName ++ ":skipped"

/-- The result of a run of steps. -/
abbrev Ran := Except StepFailure Unit × State

namespace Setup

/-- The functions of conditions; those of the setup replace others of the same name. -/
def helpers (setup : Setup) (files : Files) : Condition.Helpers :=
  setup.functions ++ (if setup.versionFunctions then Condition.versionHelpers else [])
    ++ (if setup.textFunctions then Condition.textHelpers setup.fileSystem files else [])

/-- Whether a step is skipped: it has a condition, which is false. -/
def checkRequires (setup : Setup) (step : Step) (s : State) : Except StepError Bool :=
  if step.requires = "" then .ok false
  else
    match Condition.evaluate (setup.helpers s.world.files) step.requires s.vars with
    | .ok met => .ok (!met)
    | .error fault => .error (.ofFault fault)

/-- Run the hook of a step if there is one. -/
def runHook (setup : Setup) (step : Step) : Action := fun s =>
  if step.callsAfter = "" then (.ok (), s)
  else
    match setup.hooks.lookup step.callsAfter with
    | none => (.ok (), s)
    | some hook =>
      let s := s.record (.hook step.callsAfter s.vars)
      let (result, vars) := hook s.vars
      (result, { s with vars })

/-- Log a description if it is not empty. -/
def announce (step : Step) (s : State) : State :=
  let text := step.describe s.vars
  if text = "" then s else s.log .info text

/-- The action of a step and its hook. -/
def act (setup : Setup) (ctx : Context) (step : Step) : Action := fun s =>
  match step.perform ctx (announce step s) with
  | (.ok (), s) => setup.runHook step s
  | (.error e, s) => (.error e, s)

/-- One step of an engine. -/
def runStep (setup : Setup) (ctx : Context) (suffix : String) (step : Step) (s : State) : Ran :=
  let name := step.name ++ suffix
  match setup.checkRequires step s with
  | .error e => (.error (.wrap e step name s.vars), s)
  | .ok true => (.ok (), (s.set step.name .null).set (skipKey name) (.bool true))
  | .ok false =>
    match setup.act ctx step (s.set (skipKey name) (.bool false)) with
    | (.ok (), s) => (.ok (), s)
    | (.error e, s) => (.error (.wrap e step name s.vars), s)

/-- Note the start of a step if the run is observed. -/
def observe (observed : Bool) (step : Step) (s : State) : State :=
  if observed then s.record (.before step.name s.vars.length) else s

/-- Steps up to the first failure. -/
def runSteps (setup : Setup) (ctx : Context) (suffix : String) (observed : Bool) :
    List Step → State → Ran
  | [], s => (.ok (), s)
  | step :: rest, s =>
    match setup.runStep ctx suffix step (observe observed step s) with
    | (.ok (), s) => runSteps setup ctx suffix observed rest s
    | (.error e, s) => (.error e, s)

/-- A run as the action of a step around it. -/
def asAction (ran : Ran) : Except StepError Unit × State :=
  (ran.1.mapError .nested, ran.2)

/-- The error of a step that needs one engine too many. -/
def tooDeep : StepError :=
  .other "steps are nested too deeply"

/-- What an engine lends to its steps when `run` runs the engines inside it. -/
def context (setup : Setup) (run : List Step → String → Action) : Context :=
  { fileSystem := setup.fileSystem, nested := some { load := setup.registry.steps, run } }

/-- Run steps in an engine; at most `limit` engines stand inside it. -/
def run (setup : Setup) : (limit : Nat) → (observed : Bool) → List Step → (suffix : String) →
    State → Ran
  | 0, observed, steps, suffix =>
    setup.runSteps (setup.context fun _ _ => Action.fail tooDeep) suffix observed steps
  | limit + 1, observed, steps, suffix =>
    setup.runSteps
      (setup.context fun steps suffix s => asAction (run setup limit false steps suffix s))
      suffix observed steps

/-- How many engines may stand inside one another. -/
def defaultLimit : Nat := 512

/-- What an engine lends to steps that it did not start itself. -/
def lentContext (setup : Setup) : Context :=
  setup.context fun steps suffix s => asAction (setup.run defaultLimit false steps suffix s)

end Setup

/-- An engine: what it shares, its steps, what it adds to their names, and whether it notes when
they start. -/
structure Engine where
  setup : Setup := {}
  steps : List Step := []
  suffix : String := ""
  observed : Bool := false

/-- A call that loads steps. -/
inductive Loading where
  | document (text : String)
  | records (commands : List Value)

/-- The records of a call, or the error of its document. -/
def Loading.records? : Loading → Except ScenarioError (List Value)
  | .document text => (Scenario.ofText text).map (·.commands)
  | .records commands => .ok commands

namespace Engine

/-- Add the steps of records; an engine keeps its steps if one of them is wrong. -/
def appendCommands (engine : Engine) (records : List Value) : Except ScenarioError Engine :=
  (engine.setup.registry.steps records).map fun steps =>
    { engine with steps := engine.steps ++ steps }

/-- Add the steps of a document. -/
def appendText (engine : Engine) (text : String) : Except ScenarioError Engine :=
  (Scenario.ofText text).bind fun scenario => engine.appendCommands scenario.commands

/-- What a call makes of an engine. -/
def load (call : Loading) (engine : Engine) : Except ScenarioError Engine :=
  match call with
  | .document text => engine.appendText text
  | .records commands => engine.appendCommands commands

/-- A call, and the engine behind it: one that fails leaves the engine. -/
def append (call : Loading) (engine : Engine) : Except ScenarioError Unit × Engine :=
  match engine.load call with
  | .ok loaded => (.ok (), loaded)
  | .error e => (.error e, engine)

/-- Calls one after the other, whether they fail or not. -/
def appendAll (calls : List Loading) (engine : Engine) : Engine :=
  calls.foldl (fun engine call => (engine.append call).2) engine

/-- An engine without steps inside this one. -/
def child (engine : Engine) : Engine :=
  { setup := engine.setup }

/-- Run the steps of an engine; at most `limit` engines stand inside it. -/
def executeIn (engine : Engine) (limit : Nat) (s : State) : Ran :=
  engine.setup.run limit engine.observed engine.steps engine.suffix s

/-- Run the steps of an engine. -/
def execute (engine : Engine) (s : State) : Ran :=
  engine.executeIn Setup.defaultLimit s

end Engine

end Runbook
