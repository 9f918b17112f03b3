import Runbook.Run.Engine
/-!
# Runs, step by step

A run goes through its steps in order, and what it does with one step depends on the state in which
it finds that step and on nothing else.  This file says what that is, for runs of any length and for
engines at any depth.

* `Setup.lentRun`, `Setup.lends`, `Setup.run_eq_runSteps` — the context that a run gives to its
  steps, and a run as the run of its list of steps in that context;
* `Setup.runSteps_append` — a run over two lists goes on with the second one exactly when the first
  one has not failed;
* `Setup.Treats` — what is done with one step: it is skipped, or refused, or its flag is lowered
  before its action starts, and its hook follows the action;
* `Setup.run_treats_steps` — every step that a run reaches is treated so, and behind the first
  failure nothing happens any more.

The actions of steps are not looked into here: a step that runs other steps is one action, and the
runs inside it are runs of their own, to which the same statements apply.
-/

namespace Runbook

/-! ### Two bindings of one step -/

/-- The flag of a step is longer than its name, so a name is never a flag of its own. -/
theorem ne_skipKey (name suffix : String) : name ≠ skipKey (name ++ suffix) := by
  intro h
  have hlength := congrArg String.length h
  simp only [skipKey, String.length_append] at hlength
  have hopening : ("__step:" : String).length = 7 := by decide
  omega

namespace State

@[simp] theorem get?_set_self (key : String) (value : Value) (s : State) :
    Fields.get? key (s.set key value).vars = some value :=
  Fields.get?_insert_self key value s.vars

theorem get?_set_of_ne {key other : String} (value : Value) (s : State) (h : other ≠ key) :
    Fields.get? other (s.set key value).vars = Fields.get? other s.vars :=
  Fields.get?_insert_of_ne value s.vars h

end State

namespace Setup

/-! ### A run as the run of a list -/

/-- How the steps of a run may run other steps when at most `limit` engines stand inside it. -/
def lentRun (setup : Setup) : (limit : Nat) → List Step → (suffix : String) → Action
  | 0 => fun _ _ => Action.fail tooDeep
  | limit + 1 => fun steps suffix s => asAction (setup.run limit false steps suffix s)

/-- The context that a run lends to its steps. -/
def lends (setup : Setup) (limit : Nat) : Context :=
  setup.context (setup.lentRun limit)

theorem run_eq_runSteps (setup : Setup) (limit : Nat) (observed : Bool) (steps : List Step)
    (suffix : String) (s : State) :
    setup.run limit observed steps suffix s
      = setup.runSteps (setup.lends limit) suffix observed steps s := by
  cases limit <;> rfl

/-- A run over two lists: the second one is reached only behind a success of the first. -/
theorem runSteps_append (setup : Setup) (ctx : Context) (suffix : String) (observed : Bool)
    (first rest : List Step) (s : State) :
    setup.runSteps ctx suffix observed (first ++ rest) s
      = match setup.runSteps ctx suffix observed first s with
        | (.ok (), t) => setup.runSteps ctx suffix observed rest t
        | (.error e, t) => (.error e, t) := by
  induction first generalizing s with
  | nil => rfl
  | cons step first ih =>
    rw [List.cons_append, runSteps, runSteps]
    rcases setup.runStep ctx suffix step (observe observed step s) with ⟨e | _, t⟩
    · rfl
    · exact ih t

/-- A failure in the first part of a list is the failure of the whole list. -/
theorem runSteps_append_of_error {setup : Setup} {ctx : Context} {suffix : String}
    {observed : Bool} {first : List Step} {s t : State} {f : StepFailure}
    (h : setup.runSteps ctx suffix observed first s = (.error f, t)) (rest : List Step) :
    setup.runSteps ctx suffix observed (first ++ rest) s = (.error f, t) := by
  rw [runSteps_append, h]

/-- One more step, behind a success of those in front of it. -/
theorem runSteps_snoc_of_ok {setup : Setup} {ctx : Context} {suffix : String} {observed : Bool}
    {first : List Step} {s u : State}
    (h : setup.runSteps ctx suffix observed first s = (.ok (), u)) (step : Step) :
    setup.runSteps ctx suffix observed (first ++ [step]) s
      = setup.runStep ctx suffix step (observe observed step u) := by
  rw [runSteps_append, h]
  show setup.runSteps ctx suffix observed [step] u = _
  rw [runSteps]
  rcases setup.runStep ctx suffix step (observe observed step u) with ⟨e | _, t⟩ <;> rfl

/-! ### One step -/

/-- What the condition of a step says in a state. -/
def condition (setup : Setup) (step : Step) (s : State) : Except Condition.Fault Bool :=
  Condition.evaluate (setup.helpers s.world.files) step.requires s.vars

/-- The hook that a step names, if there is one under that name; the empty name names none. -/
def hook? (setup : Setup) (step : Step) : Option Hook :=
  if step.callsAfter = "" then none else setup.hooks.lookup step.callsAfter

/-- The state in which the action of a step starts: the flag of the step is false, no other variable
has changed, and all that was seen is the description of the step, unless it is empty. -/
structure Starts (suffix : String) (step : Step) (u start : State) : Prop where
  lowered : Fields.get? (skipKey (step.name ++ suffix)) start.vars = some (.bool false)
  kept : ∀ key, key ≠ skipKey (step.name ++ suffix) →
    Fields.get? key start.vars = Fields.get? key u.vars
  announced : start.world =
    if step.describe start.vars = "" then u.world
    else u.world.log .info (step.describe start.vars)

/-- What follows an action that ended in `t`: nothing behind a failure, and behind a success the
hook of the step, once, if there is one. -/
def Follows (setup : Setup) (suffix : String) (step : Step) (after : Ran) :
    Except StepError Unit × State → Prop
  | (.error e, t) => after = (.error (.wrap e step (step.name ++ suffix) t.vars), t)
  | (.ok (), t) =>
    match setup.hook? step with
    | none => after = (.ok (), t)
    | some hook => ∃ v : State,
      v.vars = (hook t.vars).2 ∧ v.world = t.world.record (.hook step.callsAfter t.vars) ∧
      after = ((hook t.vars).1.mapError (.wrap · step (step.name ++ suffix) v.vars), v)

/-- What is done with a step that is found in the state `u`; `after` is how this ends.

* A step whose condition is false leaves two bindings: null under its name, and its flag raised.
* A step whose condition cannot be decided leaves nothing, and fails.
* Any other step acts, with its flag lowered before, and its hook follows. -/
structure Treats (setup : Setup) (ctx : Context) (suffix : String) (step : Step) (u : State)
    (after : Ran) : Prop where
  skips : step.requires ≠ "" → setup.condition step u = .ok false →
    ∃ t : State, after = (.ok (), t) ∧ t.world = u.world ∧
      Fields.get? step.name t.vars = some .null ∧
      Fields.get? (skipKey (step.name ++ suffix)) t.vars = some (.bool true) ∧
      ∀ key, key ≠ step.name → key ≠ skipKey (step.name ++ suffix) →
        Fields.get? key t.vars = Fields.get? key u.vars
  refuses : ∀ fault, step.requires ≠ "" → setup.condition step u = .error fault →
    after = (.error (.mk (.ofFault fault) (step.summary (step.name ++ suffix)) u.vars), u)
  acts : step.requires = "" ∨ setup.condition step u = .ok true →
    ∃ start : State, Starts suffix step u start ∧
      setup.Follows suffix step after (step.perform ctx start)

/-- A condition error is never a wrapped failure. -/
theorem wrap_ofFault (fault : Condition.Fault) (step : Step) (name : String) (vars : Namespace) :
    StepFailure.wrap (.ofFault fault) step name vars
      = .mk (.ofFault fault) (step.summary name) vars := by
  cases fault <;> rfl

theorem checkRequires_of_requires {step : Step} (h : step.requires ≠ "") (setup : Setup)
    (s : State) :
    setup.checkRequires step s
      = match setup.condition step s with
        | .ok met => .ok (!met)
        | .error fault => .error (.ofFault fault) := by
  rw [checkRequires, if_neg h]
  rfl

/-- A step acts when it has no condition, or one that holds. -/
theorem checkRequires_eq_false {setup : Setup} {step : Step} {s : State}
    (h : step.requires = "" ∨ setup.condition step s = .ok true) :
    setup.checkRequires step s = .ok false := by
  by_cases hempty : step.requires = ""
  · rw [checkRequires, if_pos hempty]
  · rw [checkRequires_of_requires hempty, h.resolve_left hempty]
    rfl

/-- The state that an action is given. -/
theorem starts_announce (suffix : String) (step : Step) (u : State) :
    Starts suffix step u
      (announce step (u.set (skipKey (step.name ++ suffix)) (.bool false))) := by
  have hvars : ∀ s : State, (announce step s).vars = s.vars := by
    intro s
    rw [announce]
    split <;> rfl
  refine ⟨?_, ?_, ?_⟩
  · rw [hvars, State.get?_set_self]
  · intro key hkey
    rw [hvars, State.get?_set_of_ne _ _ hkey]
  · rw [hvars, announce]
    split <;> rfl

/-- The hook of a step, where there is one, is all that is run behind a success of its action. -/
theorem runHook_eq (setup : Setup) (step : Step) (t : State) :
    setup.runHook step t
      = match setup.hook? step with
        | none => (.ok (), t)
        | some hook =>
          ((hook t.vars).1,
            { vars := (hook t.vars).2
              world := t.world.record (.hook step.callsAfter t.vars) }) := by
  rw [runHook, hook?]
  by_cases hempty : step.callsAfter = ""
  · rw [if_pos hempty, if_pos hempty]
  · rw [if_neg hempty, if_neg hempty]
    cases setup.hooks.lookup step.callsAfter with
    | none => rfl
    | some hook => rfl

theorem runStep_of_skip {setup : Setup} {step : Step} {u : State}
    (h : setup.checkRequires step u = .ok true) (ctx : Context) (suffix : String) :
    setup.runStep ctx suffix step u
      = (.ok (), (u.set step.name .null).set (skipKey (step.name ++ suffix)) (.bool true)) := by
  rw [runStep, h]

theorem runStep_of_refusal {setup : Setup} {step : Step} {u : State} {e : StepError}
    (h : setup.checkRequires step u = .error e) (ctx : Context) (suffix : String) :
    setup.runStep ctx suffix step u
      = (.error (.wrap e step (step.name ++ suffix) u.vars), u) := by
  rw [runStep, h]

/-- A step that acts ends as its action and its hook do, and what they fail with is wrapped. -/
theorem runStep_of_act {setup : Setup} {step : Step} {u : State}
    (h : setup.checkRequires step u = .ok false) (ctx : Context) (suffix : String) :
    setup.runStep ctx suffix step u
      = match setup.act ctx step (u.set (skipKey (step.name ++ suffix)) (.bool false)) with
        | (.ok (), t) => (.ok (), t)
        | (.error e, t) => (.error (.wrap e step (step.name ++ suffix) t.vars), t) := by
  unfold runStep
  generalize setup.checkRequires step u = checked at h
  subst h
  rfl

/-- **One step of an engine.** -/
theorem runStep_treats (setup : Setup) (ctx : Context) (suffix : String) (step : Step) (u : State) :
    setup.Treats ctx suffix step u (setup.runStep ctx suffix step u) where
  skips hrequires hcondition := by
    have hskip : setup.checkRequires step u = .ok true := by
      rw [checkRequires_of_requires hrequires, hcondition]
      rfl
    refine ⟨_, runStep_of_skip hskip ctx suffix, rfl, ?_, ?_, ?_⟩
    · rw [State.get?_set_of_ne _ _ (ne_skipKey step.name suffix), State.get?_set_self]
    · rw [State.get?_set_self]
    · intro key hname hflag
      rw [State.get?_set_of_ne _ _ hflag, State.get?_set_of_ne _ _ hname]
  refuses fault hrequires hcondition := by
    have hrefused : setup.checkRequires step u = .error (.ofFault fault) := by
      rw [checkRequires_of_requires hrequires, hcondition]
    rw [runStep_of_refusal hrefused, ← wrap_ofFault]
  acts hmet := by
    refine ⟨_, starts_announce suffix step u, ?_⟩
    rw [runStep_of_act (checkRequires_eq_false hmet), act]
    generalize step.perform ctx _ = done
    rcases done with ⟨e | _, t⟩
    · rfl
    · -- the action succeeded, so the hook decides how the step ends
      show setup.Follows suffix step
        (match setup.runHook step t with
          | (.ok (), v) => (.ok (), v)
          | (.error e, v) => (.error (.wrap e step (step.name ++ suffix) v.vars), v)) (.ok (), t)
      rw [runHook_eq, Follows]
      cases setup.hook? step with
      | none => rfl
      | some hook =>
        refine ⟨⟨(hook t.vars).2, t.world.record (.hook step.callsAfter t.vars)⟩, rfl, rfl, ?_⟩
        dsimp only
        rcases hook t.vars with ⟨e | _, vars⟩ <;> rfl

/-! ### Whole runs -/

/-- **What a run does with every step it reaches.**  A run reaches the step at place `n` when the
steps in front of it have passed, and then treats it as `Treats` says; when they have not passed,
the whole run ends as they did, with the same failure in the same state. -/
theorem run_treats_steps (setup : Setup) (limit : Nat) (observed : Bool) (steps : List Step)
    (suffix : String) (s : State) (n : Nat) :
    (∀ f t, setup.run limit observed (steps.take n) suffix s = (.error f, t) →
      setup.run limit observed steps suffix s = (.error f, t)) ∧
    (∀ step u, steps[n]? = some step →
      setup.run limit observed (steps.take n) suffix s = (.ok (), u) →
      setup.Treats (setup.lends limit) suffix step (observe observed step u)
        (setup.run limit observed (steps.take (n + 1)) suffix s)) := by
  constructor
  · intro f t hfailed
    rw [run_eq_runSteps] at hfailed ⊢
    rw [← List.take_append_drop n steps]
    exact runSteps_append_of_error hfailed _
  · intro step u hstep hpassed
    rw [run_eq_runSteps] at hpassed ⊢
    have htake : steps.take (n + 1) = steps.take n ++ [step] := by
      rw [List.take_add_one, hstep]
      rfl
    rw [htake, runSteps_snoc_of_ok hpassed]
    exact runStep_treats setup (setup.lends limit) suffix step (observe observed step u)

/-- A setup with one hook, which binds a variable. -/
def noting : Setup :=
  { hooks := [("note", fun vars => (.ok (), vars.insert "noted" .null))] }

/-- A step that announces itself and is followed by that hook. -/
def greeting : Step :=
  { givenName := "greet", description := "hello", callsAfter := "note", body := .message }

/-- The second of two steps is reached and treated. -/
theorem run_treats_second_greeting :
    ∃ u, noting.run 0 false ([greeting, greeting].take 1) "" { vars := [], world := {} }
        = (.ok (), u) ∧
      noting.Treats (noting.lends 0) "" greeting u
        (noting.run 0 false ([greeting, greeting].take 2) "" { vars := [], world := {} }) :=
  ⟨_, rfl, (run_treats_steps noting 0 false [greeting, greeting] "" _ 1).2 _ _ rfl rfl⟩

end Setup

end Runbook
