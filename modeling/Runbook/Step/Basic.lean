import Runbook.Error
import Runbook.Storage.Basic
import Runbook.Value.Basic
/-!
# Steps

* `RetryPolicy` — how often a step is tried and what is done when it fails;
* `Exec`, `RemoteExec`, `Foreach`, `Include`, `RemoteFile`, `Password` — what the larger kinds of
  steps hold;
* `Body` — what a step does, by its kind;
* `Step` — a body with a name, a description, a condition and a hook.

A step without a name is called by its place in the document.
-/

namespace Runbook

/-- How often a step is tried, the pause between two attempts, and the steps to run when an attempt
or the last attempt has failed. -/
structure RetryPolicy where
  allowFail : Bool := false
  attempts : Nat := 0
  delay : Nat := 0
  onEachFailure : Option (List Value) := none
  onFinalFailure : Option (List Value) := none
deriving Repr

/-- A local program: its words, the variable for its output, entries of its environment. -/
structure Exec where
  words : List String := []
  target : String := ""
  environment : List String := []
  retry : RetryPolicy := {}
deriving Repr

/-- A remote command; `shownAs` is shown in its place. -/
structure RemoteExec where
  words : List String := []
  shownAs : String := ""
  target : String := ""
  environment : List (String × String) := []
  retry : RetryPolicy := {}
deriving Repr

/-- Steps to run for each entry of a collection. -/
structure Foreach where
  commands : List Value := []
  iterable : Value := .null
  collection : String := ""
  keyName : String := ""
  valueName : String := ""
  parentName : String := ""
deriving Repr

/-- Steps of another document; `storage` holds the documents, if the step was given any. -/
structure Include where
  file : String := ""
  declared : Fields := []
  isolated : Bool := false
  storage : Option FileSystem := none
  base : String := ""
deriving Repr

/-- A file to write on another host. -/
structure RemoteFile where
  file : String := ""
  contents : String := ""
  contentsFile : String := ""
  contentsVariable : String := ""
  permissions : String := ""
  timeout : Nat := 0
deriving Repr

/-- A secret to draw. -/
structure Password where
  target : String := ""
  length : Nat := 0
  charset : String := ""
deriving Repr

/-- What a step does. -/
inductive Body where
  | message
  | assign (target : String) (value : Value)
  | sleep (seconds : Nat)
  | password (password : Password)
  | writeFile (file contents : String)
  | exec (exec : Exec)
  | foreach (loop : Foreach)
  | commands (commands : List Value)
  | includeFile (inclusion : Include)
  | remoteExec (exec : RemoteExec)
  | remoteFile (file : RemoteFile)
deriving Repr

/-- The name of a kind of steps. -/
def Body.kind : Body → String
  | .message => "message"
  | .assign _ _ => "variable"
  | .sleep _ => "sleep"
  | .password _ => "password"
  | .writeFile _ _ => "writefile"
  | .exec _ => "exec"
  | .foreach _ => "foreach"
  | .commands _ => "commands"
  | .includeFile _ => "include"
  | .remoteExec _ => "ssh_exec"
  | .remoteFile _ => "scp_writefile"

/-- Where a step stands in its document, and the record it was read from. -/
structure Origin where
  id : Nat
  contents : String
deriving DecidableEq, Repr

/-- A step. -/
structure Step where
  givenName : String := ""
  description : String := ""
  requires : String := ""
  callsAfter : String := ""
  origin : Option Origin := none
  body : Body
deriving Repr

namespace Step

/-- The name of a step by its place. -/
def placeName (id : Nat) : String :=
  "__step_no_" ++ Text.padNat 3 id

/-- The name of a step. -/
def name (step : Step) : String :=
  match step.origin with
  | some origin =>
    if step.givenName = "" ∧ 0 < origin.id then placeName origin.id else step.givenName
  | none => step.givenName

/-- The name of the kind of a step. -/
def kind (step : Step) : String :=
  step.body.kind

/-- A step as errors show it, under its name with a suffix. -/
def summary (step : Step) (effectiveName : String) : StepSummary :=
  { name := effectiveName, id := step.origin.map Origin.id, kind := step.kind }

end Step

end Runbook
