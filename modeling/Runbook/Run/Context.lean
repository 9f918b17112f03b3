import Runbook.Scenario
import Runbook.Step.Basic
import Runbook.World
/-!
# What steps are given

* `Nested` — what an engine offers to its steps: loading records, and running the steps that came
  of them;
* `Context` — the file system of a step, and its engine if it has one;
* `Context.engine?` — the engine, or the error of a step that needs one.

A step that was not made by an engine can do everything but run other steps.
-/

namespace Runbook

/-- What an engine offers to its steps. -/
structure Nested where
  load : List Value → Except ScenarioError (List Step)
  run : List Step → (suffix : String) → Action

/-- What a step is given. -/
structure Context where
  fileSystem : FileSystem := .memory
  nested : Option Nested := none

/-- The error of a step that needs an engine and has none. -/
def engineNeeded : StepError :=
  .definition "this command must be run from the executor"

/-- The engine of a step. -/
def Context.engine? (ctx : Context) : Except StepError Nested :=
  match ctx.nested with
  | some nested => .ok nested
  | none => .error engineNeeded

/-- The steps of a document. -/
def Nested.loadText (nested : Nested) (text : String) : Except ScenarioError (List Step) :=
  (Scenario.ofText text).bind fun scenario => nested.load scenario.commands

/-- What is logged when steps have been loaded. -/
def loadedNotice (steps : List Step) : String :=
  "Loaded " ++ Text.natText steps.length ++ " step(s)"

end Runbook
