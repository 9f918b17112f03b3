import Runbook.Run.Context
/-!
# Retrying

* `RetryPolicy.settle` — what an attempt ends with when failures are allowed, and the variable that
  keeps its status;
* `runFailureSteps` — runs the steps for a failure, whose own failure is only logged;
* `RetryPolicy.tryFrom` — attempts until one succeeds, fails for good, or none is left;
* `RetryPolicy.run` — an action under a policy.

Only a process that ran and failed is worth another attempt. What an action is given is the number
of its attempt, from one.
-/

namespace Runbook

/-- The variable that keeps the status of a step. -/
def statusKey (stepName : String) : String :=
  stepName ++ "_exit_status"

/-- Run the steps for a failure; `label` names them in the log. -/
def runFailureSteps (ctx : Context) (label : String) (commands : List Value) (s : State) : State :=
  let failed (e : StepError) (s : State) : State :=
    s.log .error ("Got an error when running " ++ label ++ ": " ++ e.message)
  match ctx.engine? with
  | .error e => failed e s
  | .ok nested =>
    match nested.loadText (Scenario.document commands) with
    | .error e => failed (.scenario e) s
    | .ok steps =>
      match nested.run steps "" (s.log .debug (loadedNotice steps)) with
      | (.ok (), s) => s
      | (.error e, s) => failed e s

/-- Run the steps for a failure if there are any. -/
def runFailureStepsIf (ctx : Context) (label : String) (commands : Option (List Value))
    (s : State) : State :=
  match commands with
  | some commands => runFailureSteps ctx label commands s
  | none => s

namespace RetryPolicy

/-- What an attempt ends with. -/
def settle (policy : RetryPolicy) (stepName : String) (result : Except StepError Unit)
    (s : State) : Except StepError Unit × State :=
  if policy.allowFail then
    match result with
    | .ok () => (.ok (), s.set (statusKey stepName) (.int 0))
    | .error e =>
      match e.exitStatus? with
      | some status => (.ok (), s.set (statusKey stepName) (.int status))
      | none => (.error e, s.set (statusKey stepName) (.int 0))
  else (result, s)

/-- What is logged of a failure when `left` attempts are left, this one included. -/
def failureNotice (left : Nat) : String :=
  "Got an error and attempts = " ++ Text.natText left

/-- What is logged before another attempt. -/
def retryNotice (left : Nat) : String :=
  "Got execution failure, will retry (attempts left " ++ Text.natText left ++ ")"

/-- One attempt: the action, what it is settled to, and the steps for its failure. -/
def attempt (policy : RetryPolicy) (ctx : Context) (stepName : String) (action : Nat → Action)
    (left number : Nat) : Action := fun s =>
  let (result, s) := action number s
  match policy.settle stepName result s with
  | (.ok (), s) => (.ok (), s)
  | (.error e, s) =>
    let s := s.log .info (failureNotice left)
    (.error e, runFailureStepsIf ctx "OnEachFailure" policy.onEachFailure s)

/-- The end of a step whose last attempt has failed. -/
def giveUp (policy : RetryPolicy) (ctx : Context) (e : StepError) : Action := fun s =>
  (.error e, runFailureStepsIf ctx "OnFinalFailure" policy.onFinalFailure s)

/-- What happens between two attempts. -/
def pause (policy : RetryPolicy) (left : Nat) (s : State) : State :=
  (s.log .info (retryNotice left)).record (.sleep policy.delay)

/-- Attempts while there are any left; the first one has the number `number`. -/
def tryFrom (policy : RetryPolicy) (ctx : Context) (stepName : String)
    (action : Nat → Action) : (left number : Nat) → Action
  | 0, number => fun s =>
    match policy.attempt ctx stepName action 0 number s with
    | (.ok (), s) => (.ok (), s)
    | (.error e, s) => policy.giveUp ctx e s
  | left + 1, number => fun s =>
    match policy.attempt ctx stepName action (left + 1) number s with
    | (.ok (), s) => (.ok (), s)
    | (.error e, s) =>
      if left = 0 then policy.giveUp ctx e s
      else if e.isExit then
        tryFrom policy ctx stepName action left (number + 1) (policy.pause left s)
      else (.error e, s)

/-- An action under a policy. -/
def run (policy : RetryPolicy) (ctx : Context) (stepName : String) (action : Nat → Action) :
    Action :=
  policy.tryFrom ctx stepName action policy.attempts 1

end RetryPolicy

end Runbook
