import Runbook.Storage.Error
import Runbook.Text.Blank
import Runbook.Text.Quoted
import Runbook.Value.Basic
/-!
# Errors

* `ScenarioError` — a document that gives no steps;
* `SshError`, `ScpError` — a transport that fails, and a copy that fails;
* `StepError` — what a single step ends with;
* `StepFailure` — a step's error together with the step and the namespace it left.

Each type has a `message`. `StepError.exitStatus?` tells the failures that are worth another
attempt: a process that ran and ended with a status.
-/

namespace Runbook

/-- Why a document gives no steps. -/
inductive ScenarioError where
  | yaml
  | json
  | unknownKind (kind : String)
  | badRecord (id : Nat) (kind : String)
  | unreadable (path : String) (cause : IoError)
deriving DecidableEq, Repr

/-- What a document error says. -/
def ScenarioError.message : ScenarioError → String
  | .yaml => "failed to parse YAML scenario"
  | .json => "failed to parse JSON scenario"
  | .unknownKind kind => "invalid command type: " ++ Text.quoted kind
  | .badRecord id kind => "invalid command #" ++ Text.natText id ++ " of type " ++ Text.quoted kind
  | .unreadable path cause => "failed to read scenario '" ++ path ++ "': " ++ cause.message

/-- How a process that failed is described. -/
def exitMessage (status : Int) : String :=
  "process exited with status " ++ Text.intText status

/-- A failure of the transport; `exit` is a remote process that ran and failed. -/
inductive SshError where
  | exit (status : Int)
  | closed
  | io (cause : IoError)
  | other (message : String)
deriving DecidableEq, Repr

/-- What a transport error says. -/
def SshError.message : SshError → String
  | .exit status => exitMessage status
  | .closed => "session closed"
  | .io cause => cause.message
  | .other message => message

/-- A failure of a remote copy, with the stage it was in. -/
inductive ScpError where
  | timeout
  | io (stage : String) (cause : IoError)
  | remote (stage message : String)
  | shortRead (expected copied : Nat)
  | transport (stage : String) (cause : SshError)
  | taskLost
  | spawn (cause : IoError)
deriving DecidableEq, Repr

/-- What a copy error says. -/
def ScpError.message : ScpError → String
  | .timeout => "timeout when uploading files"
  | .io stage cause => stage ++ ": " ++ cause.message
  | .remote stage message => stage ++ ": " ++ message
  | .shortRead expected copied =>
    "stream contents: expected " ++ Text.natText expected ++ " bytes, got " ++ Text.natText copied
  | .transport stage cause => stage ++ ": " ++ cause.message
  | .taskLost => "copy task ended without reporting"
  | .spawn cause => "failed to start copy task: " ++ cause.message

/-- Which step failed: its name with its suffix, its place in the document, and its kind. -/
structure StepSummary where
  name : String
  id : Option Nat
  kind : String
deriving DecidableEq, Repr

mutual

/-- What a step ends with when it fails. -/
inductive StepError where
  | definition (message : String)
  | evaluation (message : String)
  | exit (status : Int)
  | io (cause : IoError)
  | ssh (cause : SshError)
  | scp (cause : ScpError)
  | scenario (cause : ScenarioError)
  | nested (failure : StepFailure)
  | context (text : String) (source : StepError)
  | other (message : String)

/-- A step's error, the step, and the namespace as the step left it. -/
inductive StepFailure where
  | mk (cause : StepError) (step : StepSummary) (vars : Namespace)

end

instance : Inhabited StepError := ⟨.other ""⟩

/-- How a failed step is announced. -/
def StepSummary.announcement (step : StepSummary) : String :=
  let id := match step.id with
    | some id => "commandId=" ++ Text.natText id ++ ", "
    | none => ""
  "command failed (stepName=" ++ step.name ++ ", " ++ id ++ "commandType=" ++ step.kind ++ "): "

mutual

/-- What a step error says. -/
def StepError.message : StepError → String
  | .definition message => message
  | .evaluation message => message
  | .exit status => exitMessage status
  | .io cause => cause.message
  | .ssh cause => cause.message
  | .scp cause => cause.message
  | .scenario cause => cause.message
  | .nested failure => failure.message
  | .context text source => text ++ ": " ++ source.message
  | .other message => message
termination_by structural e => e

/-- What a step failure says. -/
def StepFailure.message : StepFailure → String
  | .mk cause step _ => step.announcement ++ cause.message
termination_by structural e => e

end

namespace StepFailure

/-- The error behind a failure. -/
def cause : StepFailure → StepError
  | .mk cause _ _ => cause

/-- The step that failed. -/
def step : StepFailure → StepSummary
  | .mk _ step _ => step

/-- The namespace as the step left it. -/
def vars : StepFailure → Namespace
  | .mk _ _ vars => vars

end StepFailure

namespace StepError

/-- The status of a process that ran and failed, here or remotely. -/
def exitStatus? : StepError → Option Int
  | .exit status => some status
  | .ssh (.exit status) => some status
  | _ => none

/-- Whether a process ran and failed. -/
def isExit (e : StepError) : Bool :=
  e.exitStatus?.isSome

/-- An error with a line of context before it. -/
def within (text : String) (e : StepError) : StepError :=
  .context text e

end StepError

end Runbook
