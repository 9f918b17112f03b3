import Runbook.Proofs.Run.Steps
/-!
# What engines lend

A step that runs other steps is lent two things by its engine: a way to load records and a way to
run what came of them.  Here it is said what these two are in the engines of a setup, and what it
is that comes of records when they are handed over as a document.

* `Setup.nested`, `Setup.nested_lends` — what the engines of a setup lend to their steps;
* `Nested.Loads`, `Nested.loads_loadText` — the steps that come of records, or why none do;
* `RunsInside`, `runsInside_runCommands` — what comes of records that a step runs in an engine
  inside its own.
-/

namespace Runbook

namespace Setup

/-- What an engine offers to its steps when at most `limit` engines stand inside it. -/
def nested (setup : Setup) (limit : Nat) : Nested :=
  { load := setup.registry.steps, run := setup.lentRun limit }

theorem nested_lends (setup : Setup) (limit : Nat) :
    (setup.lends limit).nested = some (setup.nested limit) := rfl

theorem engine?_lends (setup : Setup) (limit : Nat) :
    (setup.lends limit).engine? = .ok (setup.nested limit) := rfl

end Setup

/-- The engine of a step is what it was lent. -/
theorem Context.engine?_of_some {ctx : Context} {nested : Nested} (h : ctx.nested = some nested) :
    ctx.engine? = .ok nested := by
  rw [engine?, h]

theorem Context.engine?_of_none {ctx : Context} (h : ctx.nested = none) :
    ctx.engine? = .error engineNeeded := by
  rw [engine?, h]

namespace Nested

/-- What comes of records that are handed to an engine as a document: the document is not read, or
it is, and then the engine decides about the records that are in it. -/
inductive Loads (nested : Nested) (records : List Value) :
    Except ScenarioError (List Step) → Prop
  | unread {e} :
      Scenario.ofText (Scenario.document records) = .error e →
      Loads nested records (.error e)
  | read {scenario} :
      Scenario.ofText (Scenario.document records) = .ok scenario →
      Loads nested records (nested.load scenario.commands)

theorem loads_loadText (nested : Nested) (records : List Value) :
    nested.Loads records (nested.loadText (Scenario.document records)) := by
  unfold loadText
  rcases hread : Scenario.ofText (Scenario.document records) with e | scenario
  · exact .unread hread
  · exact .read hread

end Nested

/-- What comes of records that a step runs on the state `s`.  An engine inside the one that is lent
loads them and runs their steps on this state, and the step ends as that run does; without an engine
or without steps nothing is run. -/
inductive RunsInside (engine : Option Nested) (records : List Value) (s : State) :
    Except StepError Unit × State → Prop
  | engineless :
      engine = none →
      RunsInside engine records s (.error engineNeeded, s)
  | unloaded {nested e} :
      engine = some nested →
      nested.Loads records (.error e) →
      RunsInside engine records s
        (.error ((StepError.scenario e).within "cannot load child executor"), s)
  | ran {nested steps ran} :
      engine = some nested →
      nested.Loads records (.ok steps) →
      nested.run steps "" (s.log .debug (loadedNotice steps)) = ran →
      RunsInside engine records s ran

theorem runsInside_runCommands (ctx : Context) (records : List Value) (s : State) :
    RunsInside ctx.nested records s (runCommands ctx records s) := by
  unfold runCommands
  cases hengine : ctx.nested with
  | none =>
    rw [Context.engine?_of_none hengine]
    exact .engineless rfl
  | some nested =>
    rw [Context.engine?_of_some hengine]
    have hloads := nested.loads_loadText records
    dsimp only
    rcases hload : nested.loadText (Scenario.document records) with e | steps
    · rw [hload] at hloads
      exact .unloaded rfl hloads
    · rw [hload] at hloads
      exact .ran rfl hloads rfl

end Runbook
