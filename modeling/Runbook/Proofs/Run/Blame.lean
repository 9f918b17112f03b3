import Runbook.Proofs.Run.Inner
/-!
# Whose failure a run reports

Engines stand inside engines at any depth, and when a step fails in one of them, every engine around
it fails as well.  One failure is reported for all of them.  This file says which one: it is built
by the innermost engine, for the step that failed there and with the variables that this step left,
and the engines around pass it on as it is.

* `Setup.FailsBy` — a step fails by its condition, by its own action, or by its hook;
* `Setup.Blames` — the way from a run that fails to the step at which it is built: through runs
  that were opened, each of which fails with the same failure;
* `Setup.run_blames_innermost` — every failure of a run was built so;
* `Setup.run_error_of_blames` — and every step on such a way makes the whole run fail with it.

A hook is given by whoever sets an engine up; that a hook returns no wrapped failure is an
assumption here, and the only one.
-/

namespace Runbook

namespace Setup

/-! ### One step that fails -/

/-- The state in which the action of a step starts that is found in the state `u`. -/
def starting (suffix : String) (step : Step) (u : State) : State :=
  announce step (u.set (skipKey (step.name ++ suffix)) (.bool false))

/-- A step that is found in the state `u` acts: it has no condition, or one that holds. -/
def Acts (setup : Setup) (step : Step) (u : State) : Prop :=
  step.requires = "" ∨ setup.condition step u = .ok true

/-- A step that is found in the state `u` fails by itself, with an error and in a state: its
condition cannot be decided; or its action fails, while no run fails that the action opened; or its
action succeeds and its hook fails. -/
inductive FailsBy (setup : Setup) (limit : Nat) (suffix : String) (step : Step) (u : State) :
    StepError → State → Prop
  | condition {fault} :
      step.requires ≠ "" →
      setup.condition step u = .error fault →
      FailsBy setup limit suffix step u (.ofFault fault) u
  | action {e t} :
      setup.Acts step u →
      step.perform (setup.lends limit) (starting suffix step u) = (.error e, t) →
      (∀ shared steps added inner f v,
        setup.Opens limit step (starting suffix step u) shared steps added inner →
        setup.lentRun limit steps added inner ≠ (.error (.nested f), v)) →
      FailsBy setup limit suffix step u e t
  | hook {hook e t vars} :
      setup.Acts step u →
      step.perform (setup.lends limit) (starting suffix step u) = (.ok (), t) →
      setup.hook? step = some hook →
      hook t.vars = (.error e, vars) →
      FailsBy setup limit suffix step u e
        { vars, world := t.world.record (.hook step.callsAfter t.vars) }

/-- No hook of a setup returns a wrapped failure. -/
def HooksOwn (setup : Setup) : Prop :=
  ∀ name hook, setup.hooks.lookup name = some hook →
    ∀ vars e vars', hook vars = (.error e, vars') → e.Unwrapped

theorem HooksOwn.unwrapped {setup : Setup} (hown : setup.HooksOwn) {step : Step} {hook : Hook}
    (hhook : setup.hook? step = some hook) {vars vars' : Namespace} {e : StepError}
    (h : hook vars = (.error e, vars')) : e.Unwrapped := by
  unfold hook? at hhook
  split at hhook
  · cases hhook
  · exact hown _ hook hhook vars e vars' h

/-- A condition that refuses a step cannot be decided. -/
theorem condition_of_checkRequires {setup : Setup} {step : Step} {u : State} {e : StepError}
    (h : setup.checkRequires step u = .error e) :
    step.requires ≠ "" ∧ ∃ fault, setup.condition step u = .error fault ∧ e = .ofFault fault := by
  by_cases hrequires : step.requires = ""
  · rw [checkRequires, if_pos hrequires] at h
    cases h
  · rw [checkRequires_of_requires hrequires] at h
    refine ⟨hrequires, ?_⟩
    rcases hcondition : setup.condition step u with fault | met
    · rw [hcondition] at h
      cases h
      exact ⟨fault, rfl, rfl⟩
    · rw [hcondition] at h
      cases h

/-- A step that is not skipped acts. -/
theorem acts_of_checkRequires {setup : Setup} {step : Step} {u : State}
    (h : setup.checkRequires step u = .ok false) : setup.Acts step u := by
  by_cases hrequires : step.requires = ""
  · exact .inl hrequires
  · rw [checkRequires_of_requires hrequires] at h
    rcases hcondition : setup.condition step u with fault | met
    · rw [hcondition] at h
      cases h
    · rw [hcondition] at h
      cases met with
      | false => cases h
      | true => exact .inr hcondition

/-- What fails behind an action that succeeded is the hook of the step. -/
theorem hook_of_runHook {setup : Setup} {step : Step} {t v : State} {e : StepError}
    (h : setup.runHook step t = (.error e, v)) :
    ∃ hook vars, setup.hook? step = some hook ∧ hook t.vars = (.error e, vars) ∧
      v = { vars, world := t.world.record (.hook step.callsAfter t.vars) } := by
  rw [runHook_eq] at h
  cases hhook : setup.hook? step with
  | none =>
    rw [hhook] at h
    cases h
  | some hook =>
    rw [hhook] at h
    rcases hran : hook t.vars with ⟨result, vars⟩
    dsimp only at h
    rw [hran] at h
    cases h
    exact ⟨hook, vars, rfl, hran, rfl⟩

/-- A step that acts ends as its action and its hook do. -/
theorem runStep_of_acts {setup : Setup} {step : Step} {u : State} (h : setup.Acts step u)
    (ctx : Context) (suffix : String) :
    setup.runStep ctx suffix step u
      = match step.perform ctx (starting suffix step u) with
        | (.error e, t) => (.error (.wrap e step (step.name ++ suffix) t.vars), t)
        | (.ok (), t) =>
          match setup.runHook step t with
          | (.error e, v) => (.error (.wrap e step (step.name ++ suffix) v.vars), v)
          | (.ok (), v) => (.ok (), v) := by
  rw [runStep_of_act (checkRequires_eq_false h), act, starting]
  generalize step.perform ctx _ = done
  rcases done with ⟨e | _, t⟩
  · rfl
  · dsimp only
    rcases setup.runHook step t with ⟨e | _, v⟩ <;> rfl

/-- A step that fails by itself with an error of its own is reported by its engine. -/
theorem runStep_of_failsBy {setup : Setup} {limit : Nat} {suffix : String} {step : Step}
    {u t : State} {e : StepError} (h : setup.FailsBy limit suffix step u e t)
    (hunwrapped : e.Unwrapped) :
    setup.runStep (setup.lends limit) suffix step u
      = (.error (.mk e (step.summary (step.name ++ suffix)) t.vars), t) := by
  rw [← StepFailure.wrap_of_unwrapped hunwrapped]
  cases h with
  | condition hrequires hcondition =>
    refine runStep_of_refusal ?_ _ _
    rw [checkRequires_of_requires hrequires, hcondition]
  | action hacts hperform _ => rw [runStep_of_acts hacts, hperform]
  | hook hacts hperform hhook hfails =>
    rw [runStep_of_acts hacts, hperform]
    dsimp only
    rw [runHook_eq, hhook]
    dsimp only
    rw [hfails]

/-- An action that fails has failed by itself, or has opened a run that fails; the failure of that
run is the one that is reported. -/
theorem action_error {setup : Setup} {limit : Nat} {suffix : String} {step : Step} {u t : State}
    {e : StepError} (hacts : setup.Acts step u)
    (hperform : step.perform (setup.lends limit) (starting suffix step u) = (.error e, t)) :
    (setup.FailsBy limit suffix step u e t ∧ e.Unwrapped) ∨
    ∃ n f shared steps added inner v, limit = n + 1 ∧ e = .nested f ∧
      setup.Opens limit step (starting suffix step u) shared steps added inner ∧
      setup.run n false steps added inner = (.error f, v) ∧
      (shared = true → v.vars = t.vars) := by
  rcases perform_error hperform with hunwrapped | hinner
  · refine .inl ⟨.action hacts hperform ?_, hunwrapped⟩
    intro shared steps added inner g w hopens hrun
    obtain ⟨v', hv'⟩ := perform_of_opens hopens hrun
    rw [hperform] at hv'
    cases hv'
    exact StepError.not_unwrapped_nested g hunwrapped
  · exact .inr hinner

/-- A step that an engine reports as failed has failed by itself, or has opened a run that fails
with this very failure. -/
theorem runStep_error {setup : Setup} (hown : setup.HooksOwn) {limit : Nat} {suffix : String}
    {step : Step} {u t : State} {f : StepFailure}
    (h : setup.runStep (setup.lends limit) suffix step u = (.error f, t)) :
    (∃ e, setup.FailsBy limit suffix step u e t ∧ e.Unwrapped ∧
      f = .mk e (step.summary (step.name ++ suffix)) t.vars) ∨
    ∃ n shared steps added inner v, limit = n + 1 ∧ setup.Acts step u ∧
      setup.Opens limit step (starting suffix step u) shared steps added inner ∧
      setup.run n false steps added inner = (.error f, v) ∧
      (shared = true → v.vars = t.vars) := by
  rcases hcheck : setup.checkRequires step u with e | _ | _
  · -- the condition cannot be decided
    obtain ⟨hrequires, fault, hcondition, rfl⟩ := condition_of_checkRequires hcheck
    rw [runStep_of_refusal hcheck] at h
    cases h
    exact .inl ⟨_, .condition hrequires hcondition, StepError.unwrapped_ofFault fault,
      wrap_ofFault fault step _ _⟩
  · have hacts : setup.Acts step u := acts_of_checkRequires hcheck
    rw [runStep_of_acts hacts] at h
    rcases hperform : step.perform (setup.lends limit) (starting suffix step u) with ⟨e | _, v⟩
    · -- the action failed, by itself or through a run inside it
      rw [hperform] at h
      cases h
      rcases action_error hacts hperform with ⟨hfails, hunwrapped⟩ | hinner
      · exact .inl ⟨e, hfails, hunwrapped, StepFailure.wrap_of_unwrapped hunwrapped _ _ _⟩
      · obtain ⟨n, g, shared, steps, added, inner, w, hlimit, rfl, hopens, hrun, hvars⟩ := hinner
        exact .inr ⟨n, shared, steps, added, inner, w, hlimit, hacts, hopens, hrun, hvars⟩
    · -- the action succeeded, so the hook has failed
      rw [hperform] at h
      dsimp only at h
      rcases hran : setup.runHook step v with ⟨e | _, w⟩
      · rw [hran] at h
        cases h
        obtain ⟨hook, vars, hhook, hfails, rfl⟩ := hook_of_runHook hran
        have hunwrapped : e.Unwrapped := hown.unwrapped hhook hfails
        exact .inl ⟨e, .hook hacts hperform hhook hfails, hunwrapped,
          StepFailure.wrap_of_unwrapped hunwrapped _ _ _⟩
      · rw [hran] at h
        cases h
  · rw [runStep_of_skip hcheck] at h
    cases h

/-! ### A run that fails -/

/-- The failure of a run is that of one of its steps, behind steps that passed. -/
theorem runSteps_error {setup : Setup} {ctx : Context} {suffix : String} {observed : Bool}
    {steps : List Step} {s t : State} {f : StepFailure}
    (h : setup.runSteps ctx suffix observed steps s = (.error f, t)) :
    ∃ front step rest u, steps = front ++ step :: rest ∧
      setup.runSteps ctx suffix observed front s = (.ok (), u) ∧
      setup.runStep ctx suffix step (observe observed step u) = (.error f, t) := by
  induction steps generalizing s with
  | nil => cases h
  | cons step steps ih =>
    rw [runSteps] at h
    rcases hstep : setup.runStep ctx suffix step (observe observed step s) with ⟨g | _, u⟩
    · rw [hstep] at h
      cases h
      exact ⟨[], step, steps, s, rfl, rfl, hstep⟩
    · rw [hstep] at h
      obtain ⟨front, failing, rest, v, hsplit, hfront, hfails⟩ := ih h
      refine ⟨step :: front, failing, rest, v, by rw [hsplit, List.cons_append], ?_, hfails⟩
      rw [runSteps, hstep]
      exact hfront

/-- A step that fails behind steps that passed ends the run. -/
theorem run_of_runStep_error {setup : Setup} {limit : Nat} {observed : Bool} {front : List Step}
    {step : Step} {suffix : String} {s u t : State} {f : StepFailure}
    (hfront : setup.run limit observed front suffix s = (.ok (), u))
    (hstep : setup.runStep (setup.lends limit) suffix step (observe observed step u)
      = (.error f, t)) (rest : List Step) :
    setup.run limit observed (front ++ step :: rest) suffix s = (.error f, t) := by
  rw [run_eq_runSteps] at hfront ⊢
  rw [runSteps_append, hfront]
  show setup.runSteps _ suffix observed (step :: rest) u = _
  rw [runSteps, hstep]

/-- The failure `f` of a run is built in the state `t`: for the first step of the run that fails,
when this step fails by itself; and when it opened a run that fails, where the failure of that run
is built.  `shared` says that all runs on the way are on the same variables. -/
inductive Blames (setup : Setup) : (limit : Nat) → (observed : Bool) → List Step →
    (suffix : String) → State → (shared : Bool) → StepFailure → State → Prop
  | own {limit observed front step rest suffix s u e t} :
      setup.run limit observed front suffix s = (.ok (), u) →
      setup.FailsBy limit suffix step (observe observed step u) e t →
      e.Unwrapped →
      Blames setup limit observed (front ++ step :: rest) suffix s true
        (.mk e (step.summary (step.name ++ suffix)) t.vars) t
  | inner {limit observed front step rest suffix s u here steps added start shared f t v} :
      setup.run (limit + 1) observed front suffix s = (.ok (), u) →
      setup.Acts step (observe observed step u) →
      setup.Opens (limit + 1) step (starting suffix step (observe observed step u))
        here steps added start →
      setup.run limit false steps added start = (.error f, v) →
      Blames setup limit false steps added start shared f t →
      Blames setup (limit + 1) observed (front ++ step :: rest) suffix s (here && shared) f t

/-- A failure holds the variables of the state in which it was built, and no wrapped failure. -/
theorem Blames.built {setup : Setup} {limit : Nat} {observed : Bool} {steps : List Step}
    {suffix : String} {s t : State} {shared : Bool} {f : StepFailure}
    (h : setup.Blames limit observed steps suffix s shared f t) :
    f.cause.Unwrapped ∧ f.vars = t.vars := by
  induction h with
  | own _ _ hunwrapped => exact ⟨hunwrapped, rfl⟩
  | inner _ _ _ _ _ ih => exact ih

/-- Every way to a step that fails makes the run fail with the failure of that step. -/
theorem run_error_of_blames {setup : Setup} {limit : Nat} {observed : Bool} {steps : List Step}
    {suffix : String} {s t : State} {shared : Bool} {f : StepFailure}
    (h : setup.Blames limit observed steps suffix s shared f t) :
    ∃ u, setup.run limit observed steps suffix s = (.error f, u) := by
  cases h with
  | own hfront hfails hunwrapped =>
    exact ⟨t, run_of_runStep_error hfront (runStep_of_failsBy hfails hunwrapped) _⟩
  | @inner limit _ front step rest _ _ u _ steps added start _ _ _ v hfront hacts hopens hrun _ =>
    have hlent : setup.lentRun (limit + 1) steps added start = (.error (.nested f), v) := by
      show asAction (setup.run limit false steps added start) = _
      rw [hrun]
      rfl
    obtain ⟨w, hperform⟩ := perform_of_opens hopens hlent
    refine ⟨w, run_of_runStep_error hfront ?_ rest⟩
    rw [runStep_of_acts hacts, hperform]
    rfl

/-- **Whose failure a run reports.**  The failure was built once, by the innermost engine whose step
failed: it holds an error that wraps no failure, the name of that step with the suffix of that
engine, and the variables that this step left.  When all runs on the way there are on the same
variables, these are also the variables that the whole run leaves. -/
theorem run_blames_innermost (setup : Setup) (hown : setup.HooksOwn) (limit : Nat)
    (observed : Bool) (steps : List Step) (suffix : String) (s final : State) (f : StepFailure)
    (h : setup.run limit observed steps suffix s = (.error f, final)) :
    ∃ shared t, setup.Blames limit observed steps suffix s shared f t ∧
      f.cause.Unwrapped ∧ f.vars = t.vars ∧ (shared = true → f.vars = final.vars) := by
  -- it is enough to follow the variables; the rest is in what it means to blame
  suffices hway : ∃ shared t, setup.Blames limit observed steps suffix s shared f t ∧
      (shared = true → t.vars = final.vars) by
    obtain ⟨shared, t, hblames, hvars⟩ := hway
    obtain ⟨hunwrapped, hbuilt⟩ := hblames.built
    exact ⟨shared, t, hblames, hunwrapped, hbuilt, fun hshared => hbuilt.trans (hvars hshared)⟩
  induction limit generalizing observed steps suffix s final with
  | zero =>
    rw [run_eq_runSteps] at h
    obtain ⟨front, step, rest, u, rfl, hfront, hstep⟩ := runSteps_error h
    rw [← run_eq_runSteps] at hfront
    rcases runStep_error hown hstep with ⟨e, hfails, hunwrapped, rfl⟩ | ⟨n, _, _, _, _, _, hn, _⟩
    · exact ⟨true, final, .own hfront hfails hunwrapped, fun _ => rfl⟩
    · cases hn
  | succ limit ih =>
    rw [run_eq_runSteps] at h
    obtain ⟨front, step, rest, u, rfl, hfront, hstep⟩ := runSteps_error h
    rw [← run_eq_runSteps] at hfront
    rcases runStep_error hown hstep with ⟨e, hfails, hunwrapped, rfl⟩ |
      ⟨n, here, steps, added, start, v, hn, hacts, hopens, hrun, hvars⟩
    · exact ⟨true, final, .own hfront hfails hunwrapped, fun _ => rfl⟩
    · obtain rfl : limit = n := Nat.succ.inj hn
      obtain ⟨shared, t, hblames, hinner⟩ := ih false steps added start v hrun
      refine ⟨here && shared, t, .inner hfront hacts hopens hrun hblames, ?_⟩
      intro hshared
      rw [Bool.and_eq_true] at hshared
      exact (hinner hshared.2).trans (hvars hshared.1)

/-- A loop with one round, whose only step is told no file to write. -/
def futileLoop : Step :=
  { givenName := "each"
    body := .foreach
      { iterable := .arr [.bool true], commands := [.obj [("type", .str "writefile")]] } }

/-- The failure of the loop is that of the step inside it. -/
theorem run_blames_step_of_futileLoop :
    ∃ f final, ({} : Setup).run 1 false [futileLoop] "" { vars := [], world := {} }
        = (.error f, final) ∧
      f.step.name = "__step_no_001_0" ∧
      ∃ shared t,
        ({} : Setup).Blames 1 false [futileLoop] "" { vars := [], world := {} } shared f t ∧
        f.cause.Unwrapped ∧ f.vars = t.vars ∧ (shared = true → f.vars = final.vars) :=
  ⟨_, _, rfl, by rfl, run_blames_innermost {} nofun 1 false [futileLoop] "" _ _ _ rfl⟩

end Setup

end Runbook
