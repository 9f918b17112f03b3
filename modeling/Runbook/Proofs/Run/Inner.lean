import Runbook.Proofs.Run.Errors
import Runbook.Proofs.Run.Lending
/-!
# Runs inside actions

Three kinds of steps run other steps: a list of records, a loop and an inclusion.  This file says
which runs they start, on which state, and that their actions fail exactly as these runs do.

* `Setup.Opens` — a run that the action of a step starts, and whether that run is on the variables
  of the step itself;
* `Setup.perform_error` — an action fails with an error of its own, or with the failure of a run
  that it opened;
* `Setup.perform_of_opens` — when a run that an action opened fails, the action fails with that.
-/

namespace Runbook

namespace Setup

/-- A run that was lent fails with a wrapped failure, or because it is one engine too many. -/
theorem lentRun_error {setup : Setup} {limit : Nat} {steps : List Step} {suffix : String}
    {s t : State} {e : StepError} (h : setup.lentRun limit steps suffix s = (.error e, t)) :
    e.Unwrapped ∨ ∃ n f, limit = n + 1 ∧ e = .nested f ∧
      setup.run n false steps suffix s = (.error f, t) := by
  cases limit with
  | zero =>
    cases h
    exact .inl StepError.unwrapped_tooDeep
  | succ n =>
    change asAction (setup.run n false steps suffix s) = _ at h
    rcases hrun : setup.run n false steps suffix s with ⟨f | _, u⟩
    · rw [hrun] at h
      cases h
      exact .inr ⟨n, f, rfl, rfl, hrun⟩
    · rw [hrun] at h
      cases h

/-! ### Which runs are opened -/

/-- The file that a step includes, with its name filled in from the variables. -/
def included (inclusion : Include) (vars : Namespace) : String :=
  if inclusion.file = "" then "" else interpolate vars inclusion.file

/-- The state in which the document of an inclusion is read: reading is logged at most. -/
def noticed (inclusion : Include) (s : State) : State :=
  match inclusion.readingNotice (inclusion.resolve (included inclusion s.vars)) with
  | some notice => s.log .debug notice
  | none => s

theorem vars_noticed (inclusion : Include) (s : State) :
    (noticed inclusion s).vars = s.vars := by
  unfold noticed
  split <;> rfl

/-- The state in which steps run that were loaded in `s`. -/
def loaded (steps : List Step) (s : State) : State :=
  s.log .debug (loadedNotice steps)

/-- A run that a step starts inside its own action, from the state in which this action starts: the
steps of the run, what is added to their names, and the state in which it begins.  `shared` says
that it is on the variables of the step itself. -/
inductive Opens (setup : Setup) (limit : Nat) (step : Step) (start : State) :
    (shared : Bool) → List Step → (suffix : String) → State → Prop
  | list {records steps} :
      step.body = .commands records →
      (setup.nested limit).loadText (Scenario.document records) = .ok steps →
      Opens setup limit step start true steps "" (loaded steps start)
  | loop {loop before entry after steps v} :
      step.body = .foreach loop →
      (loop.collection? start.vars).bind entries? = .ok (before ++ entry :: after) →
      setup.registry.steps loop.commands = .ok steps →
      runEntries (setup.nested limit) loop steps before (loaded steps start) = (.ok (), v) →
      Opens setup limit step start false steps (keySuffix entry.1)
        { vars := loop.iteration v.vars entry, world := v.world }
  | merged {inclusion records steps} :
      step.body = .includeFile inclusion →
      inclusion.isolated = false →
      included inclusion start.vars ≠ "" →
      inclusion.load step.name (noticed inclusion start).world.files
        (included inclusion start.vars) = .ok records →
      (setup.nested limit).loadText (Scenario.document records) = .ok steps →
      Opens setup limit step start true steps ""
        (loaded steps { vars := start.vars.insertAll inclusion.declared
                        world := (noticed inclusion start).world })
  | isolated {inclusion records steps} :
      step.body = .includeFile inclusion →
      inclusion.isolated = true →
      included inclusion start.vars ≠ "" →
      inclusion.load step.name (noticed inclusion start).world.files
        (included inclusion start.vars) = .ok records →
      (setup.nested limit).loadText (Scenario.document records) = .ok steps →
      Opens setup limit step start false steps ""
        (loaded steps { vars := inclusion.declared.insert parentKey (.obj start.vars)
                        world := (noticed inclusion start).world })

/-! ### Lists of records -/

/-- Records that were loaded run on the state they are given. -/
theorem runCommands_of_loadText {setup : Setup} {limit : Nat} {records : List Value}
    {steps : List Step}
    (h : (setup.nested limit).loadText (Scenario.document records) = .ok steps) (s : State) :
    runCommands (setup.lends limit) records s
      = setup.lentRun limit steps "" (loaded steps s) := by
  rw [runCommands, engine?_lends]
  dsimp only
  rw [h]
  rfl

theorem runCommands_error {setup : Setup} {limit : Nat} {records : List Value} {s t : State}
    {e : StepError} (h : runCommands (setup.lends limit) records s = (.error e, t)) :
    e.Unwrapped ∨ ∃ steps,
      (setup.nested limit).loadText (Scenario.document records) = .ok steps ∧
      setup.lentRun limit steps "" (loaded steps s) = (.error e, t) := by
  rcases hload : (setup.nested limit).loadText (Scenario.document records) with e' | steps
  · rw [runCommands, engine?_lends] at h
    dsimp only at h
    rw [hload] at h
    cases h
    exact .inl ((StepError.unwrapped_within _ _).2 (StepError.unwrapped_scenario _))
  · rw [runCommands_of_loadText hload] at h
    exact .inr ⟨steps, rfl, h⟩

/-! ### Lists for failures -/

/-- Steps for a failure that were loaded are run, and a failure of theirs is only logged. -/
theorem runFailureSteps_of_loadText {setup : Setup} {limit : Nat} {records : List Value}
    {steps : List Step}
    (h : (setup.nested limit).loadText (Scenario.document records) = .ok steps) (label : String)
    (s : State) :
    runFailureSteps (setup.lends limit) label records s
      = match setup.lentRun limit steps "" (loaded steps s) with
        | (.ok (), t) => t
        | (.error e, t) =>
          t.log .error ("Got an error when running " ++ label ++ ": " ++ e.message) := by
  rw [runFailureSteps, engine?_lends]
  dsimp only
  rw [h]
  rfl

/-! ### Loops -/

/-- The run of the loop's steps for one entry: it leaves only the world behind. -/
theorem runEntries_cons (nested : Nested) (loop : Foreach) (steps : List Step)
    (entry : Value × Value) (rest : List (Value × Value)) (s : State) :
    runEntries nested loop steps (entry :: rest) s
      = match nested.run steps (keySuffix entry.1)
            { vars := loop.iteration s.vars entry, world := s.world } with
        | (.ok (), t) => runEntries nested loop steps rest { s with world := t.world }
        | (.error e, t) => (.error e, { s with world := t.world }) := rfl

theorem runEntries_append (nested : Nested) (loop : Foreach) (steps : List Step)
    (before rest : List (Value × Value)) (s : State) :
    runEntries nested loop steps (before ++ rest) s
      = match runEntries nested loop steps before s with
        | (.ok (), t) => runEntries nested loop steps rest t
        | (.error e, t) => (.error e, t) := by
  induction before generalizing s with
  | nil => rfl
  | cons entry before ih =>
    rw [List.cons_append, runEntries_cons, runEntries_cons]
    generalize nested.run steps (keySuffix entry.1) _ = ran
    obtain ⟨e | _, t⟩ := ran
    · rfl
    · exact ih _

/-- A loop stops at the first entry whose run fails, behind entries whose runs did not. -/
theorem runEntries_error {nested : Nested} {loop : Foreach} {steps : List Step}
    {entries : List (Value × Value)} {s t : State} {e : StepError}
    (h : runEntries nested loop steps entries s = (.error e, t)) :
    ∃ before entry after v u, entries = before ++ entry :: after ∧
      runEntries nested loop steps before s = (.ok (), v) ∧
      nested.run steps (keySuffix entry.1)
        { vars := loop.iteration v.vars entry, world := v.world } = (.error e, u) := by
  induction entries generalizing s with
  | nil => cases h
  | cons entry rest ih =>
    rw [runEntries_cons] at h
    rcases hrun : nested.run steps (keySuffix entry.1)
      { vars := loop.iteration s.vars entry, world := s.world } with ⟨e' | _, u⟩
    · rw [hrun] at h
      cases h
      exact ⟨[], entry, rest, s, u, rfl, rfl, hrun⟩
    · rw [hrun] at h
      obtain ⟨before, found, after, v, w, hsplit, hbefore, hfound⟩ := ih h
      refine ⟨entry :: before, found, after, v, w, ?_, ?_, hfound⟩
      · rw [hsplit, List.cons_append]
      · rw [runEntries_cons, hrun]
        exact hbefore

theorem unwrapped_collection {loop : Foreach} {vars : Namespace} {e : StepError}
    (h : (loop.collection? vars).bind entries? = .error e) : e.Unwrapped := by
  rcases hcollection : loop.collection? vars with e' | v
  · rw [hcollection] at h
    cases h
    unfold Foreach.collection? at hcollection
    split at hcollection
    · cases hcollection
    · cases hcollection
    · split at hcollection <;> cases hcollection <;> exact StepError.unwrapped_definition _
  · rw [hcollection] at h
    change entries? v = .error e at h
    cases v <;> cases h <;> exact StepError.unwrapped_definition _

/-- A loop whose collection and steps are there runs the steps for each entry. -/
theorem foreachAction_of_load {setup : Setup} {limit : Nat} {loop : Foreach}
    {entries : List (Value × Value)} {steps : List Step} {s : State}
    (hentries : (loop.collection? s.vars).bind entries? = .ok entries)
    (hload : setup.registry.steps loop.commands = .ok steps) :
    foreachAction (setup.lends limit) loop s
      = runEntries (setup.nested limit) loop steps entries (loaded steps s) := by
  have hnested : (setup.nested limit).load loop.commands = .ok steps := hload
  rw [foreachAction, engine?_lends]
  dsimp only
  rw [hentries]
  dsimp only
  rw [hnested]
  rfl

theorem foreach_error {setup : Setup} {limit : Nat} {step : Step} {loop : Foreach} {s t : State}
    {e : StepError} (hbody : step.body = .foreach loop)
    (h : foreachAction (setup.lends limit) loop s = (.error e, t)) :
    e.Unwrapped ∨ ∃ steps suffix inner u, setup.Opens limit step s false steps suffix inner ∧
      setup.lentRun limit steps suffix inner = (.error e, u) := by
  rcases hentries : (loop.collection? s.vars).bind entries? with e' | entries
  · rw [foreachAction, engine?_lends] at h
    dsimp only at h
    rw [hentries] at h
    cases h
    exact .inl (unwrapped_collection hentries)
  · rcases hload : setup.registry.steps loop.commands with e' | steps
    · have hnested : (setup.nested limit).load loop.commands = .error e' := hload
      rw [foreachAction, engine?_lends] at h
      dsimp only at h
      rw [hentries] at h
      dsimp only at h
      rw [hnested] at h
      cases h
      exact .inl (StepError.unwrapped_scenario _)
    · rw [foreachAction_of_load hentries hload] at h
      obtain ⟨before, entry, after, v, u, rfl, hbefore, hrun⟩ := runEntries_error h
      exact .inr ⟨steps, keySuffix entry.1, _, u, .loop hbody hentries hload hbefore, hrun⟩

/-! ### Inclusions -/

theorem unwrapped_load {inclusion : Include} {stepName : String} {files : Files} {file : String}
    {e : StepError} (h : inclusion.load stepName files file = .error e) : e.Unwrapped := by
  unfold Include.load at h
  dsimp only at h
  split at h
  · cases h
    exact StepError.unwrapped_definition _
  · split at h
    · cases h
      exact (StepError.unwrapped_within _ _).2 (StepError.unwrapped_io _)
    · split at h <;> cases h
      exact (StepError.unwrapped_within _ _).2 (StepError.unwrapped_scenario _)

theorem unwrapped_nameless (inclusion : Include) (stepName : String) :
    (inclusion.nameless stepName).Unwrapped := by
  unfold Include.nameless
  split <;> exact StepError.unwrapped_definition _

/-- An inclusion that names no file ends at once. -/
theorem includeAction_of_nameless {inclusion : Include} {s : State}
    (h : included inclusion s.vars = "") (ctx : Context) (stepName : String) :
    includeAction ctx stepName inclusion s = (.error (inclusion.nameless stepName), s) :=
  if_pos h

/-- An inclusion that names a file: the file is read, and its records run on the variables of the
step or on others. -/
theorem includeAction_of_ne {inclusion : Include} {s : State}
    (h : included inclusion s.vars ≠ "") (ctx : Context) (stepName : String) :
    includeAction ctx stepName inclusion s
      = match inclusion.load stepName (noticed inclusion s).world.files
            (included inclusion s.vars) with
        | .error e => (.error e, noticed inclusion s)
        | .ok records =>
          if inclusion.isolated then
            runIsolated ctx stepName inclusion records (noticed inclusion s)
          else runMerged ctx inclusion records (noticed inclusion s) :=
  if_neg h

/-- The variables around an inclusion with variables of its own do not reach its records. -/
theorem runIsolated_eq (ctx : Context) (stepName : String) (inclusion : Include)
    (records : List Value) (s : State) :
    runIsolated ctx stepName inclusion records s
      = (let ran := runCommands ctx records
          { vars := inclusion.declared.insert parentKey (.obj s.vars), world := s.world }
        (ran.1, { s with world := ran.2.world }.set (variablesKey stepName)
          (.obj (ran.2.vars.erase parentKey)))) := rfl

theorem include_error {setup : Setup} {limit : Nat} {step : Step} {inclusion : Include}
    {s t : State} {e : StepError} (hbody : step.body = .includeFile inclusion)
    (h : includeAction (setup.lends limit) step.name inclusion s = (.error e, t)) :
    e.Unwrapped ∨ ∃ shared steps inner u, setup.Opens limit step s shared steps "" inner ∧
      setup.lentRun limit steps "" inner = (.error e, u) ∧ (shared = true → u.vars = t.vars) := by
  by_cases hfile : included inclusion s.vars = ""
  · rw [includeAction_of_nameless hfile] at h
    cases h
    exact .inl (unwrapped_nameless inclusion step.name)
  · rw [includeAction_of_ne hfile] at h
    rcases hload : inclusion.load step.name (noticed inclusion s).world.files
      (included inclusion s.vars) with e' | records
    · rw [hload] at h
      cases h
      exact .inl (unwrapped_load hload)
    · rw [hload] at h
      dsimp only at h
      split at h
      · next hisolated =>
        rw [runIsolated_eq, vars_noticed] at h
        generalize hrun : runCommands (setup.lends limit) records _ = ran at h
        obtain ⟨result, u⟩ := ran
        cases h
        refine (runCommands_error hrun).imp_right ?_
        rintro ⟨steps, hsteps, hinner⟩
        exact ⟨false, steps, _, u, .isolated hbody hisolated hfile hload hsteps, hinner, nofun⟩
      · next hmerged =>
        rw [runMerged, vars_noticed] at h
        refine (runCommands_error h).imp_right ?_
        rintro ⟨steps, hsteps, hinner⟩
        exact ⟨true, steps, _, t,
          .merged hbody (Bool.eq_false_iff.2 hmerged) hfile hload hsteps, hinner, fun _ => rfl⟩

/-! ### All kinds of steps -/

/-- **What an action fails with.**  The error is unwrapped, or it is the failure of a run that the
action opened; a run on the variables of the step leaves them as the step does. -/
theorem perform_error {setup : Setup} {limit : Nat} {step : Step} {s t : State} {e : StepError}
    (h : step.perform (setup.lends limit) s = (.error e, t)) :
    e.Unwrapped ∨ ∃ n f shared steps suffix inner u, limit = n + 1 ∧ e = .nested f ∧
      setup.Opens limit step s shared steps suffix inner ∧
      setup.run n false steps suffix inner = (.error f, u) ∧
      (shared = true → u.vars = t.vars) := by
  -- a lent run that fails is either the run of an engine inside, or one engine too many
  have hopened : ∀ {shared steps suffix inner u},
      setup.Opens limit step s shared steps suffix inner →
      setup.lentRun limit steps suffix inner = (.error e, u) → (shared = true → u.vars = t.vars) →
      e.Unwrapped ∨ ∃ n f shared steps suffix inner u, limit = n + 1 ∧ e = .nested f ∧
        setup.Opens limit step s shared steps suffix inner ∧
        setup.run n false steps suffix inner = (.error f, u) ∧
        (shared = true → u.vars = t.vars) := by
    intro shared steps suffix inner u hopens hrun hvars
    refine (lentRun_error hrun).imp_right ?_
    rintro ⟨n, f, hlimit, he, hinner⟩
    exact ⟨n, f, shared, steps, suffix, inner, u, hlimit, he, hopens, hinner, hvars⟩
  rw [Step.perform] at h
  cases hbody : step.body with
  | message => rw [hbody] at h; exact .inl (ownErrors_done s e t h)
  | assign target value => rw [hbody] at h; exact .inl (ownErrors_assign target value s e t h)
  | sleep seconds => rw [hbody] at h; exact .inl (ownErrors_sleep seconds s e t h)
  | password p => rw [hbody] at h; exact .inl (ownErrors_password p s e t h)
  | writeFile file contents =>
    rw [hbody] at h
    exact .inl (ownErrors_writeFile _ _ file contents s e t h)
  | exec exec => rw [hbody] at h; exact .inl (ownErrors_exec _ _ _ exec s e t h)
  | remoteExec exec => rw [hbody] at h; exact .inl (ownErrors_remoteExec _ _ _ exec s e t h)
  | remoteFile file => rw [hbody] at h; exact .inl (ownErrors_remoteFile _ _ file s e t h)
  | commands records =>
    rw [hbody] at h
    rcases runCommands_error h with hown | ⟨steps, hload, hrun⟩
    · exact .inl hown
    · exact hopened (.list hbody hload) hrun fun _ => rfl
  | foreach loop =>
    rw [hbody] at h
    rcases foreach_error hbody h with hown | ⟨steps, suffix, inner, u, hopens, hrun⟩
    · exact .inl hown
    · exact hopened hopens hrun nofun
  | includeFile inclusion =>
    rw [hbody] at h
    rcases include_error hbody h with hown | ⟨shared, steps, inner, u, hopens, hrun, hvars⟩
    · exact .inl hown
    · exact hopened hopens hrun hvars

/-- **No failure inside is lost.**  When a run that an action opened fails, the action fails with
the same error. -/
theorem perform_of_opens {setup : Setup} {limit : Nat} {step : Step} {start inner u : State}
    {shared : Bool} {steps : List Step} {suffix : String} {e : StepError}
    (hopens : setup.Opens limit step start shared steps suffix inner)
    (hrun : setup.lentRun limit steps suffix inner = (.error e, u)) :
    ∃ t, step.perform (setup.lends limit) start = (.error e, t) := by
  cases hopens with
  | list hbody hload =>
    refine ⟨u, ?_⟩
    rw [Step.perform, hbody]
    exact (runCommands_of_loadText hload start).trans hrun
  | loop hbody hentries hload hbefore =>
    rw [Step.perform, hbody]
    dsimp only
    rw [foreachAction_of_load hentries hload, runEntries_append, hbefore]
    dsimp only
    have hentry : (setup.nested limit).run steps _ _ = (.error e, u) := hrun
    rw [runEntries_cons, hentry]
    exact ⟨_, rfl⟩
  | merged hbody hmerged hfile hload hsteps =>
    refine ⟨u, ?_⟩
    rw [Step.perform, hbody]
    dsimp only
    rw [includeAction_of_ne hfile, hload]
    dsimp only
    rw [hmerged, if_neg Bool.false_ne_true, runMerged, vars_noticed,
      runCommands_of_loadText hsteps]
    exact hrun
  | isolated hbody hisolated hfile hload hsteps =>
    rw [Step.perform, hbody]
    dsimp only
    rw [includeAction_of_ne hfile, hload]
    dsimp only
    rw [if_pos hisolated, runIsolated_eq, vars_noticed, runCommands_of_loadText hsteps, hrun]
    exact ⟨_, rfl⟩

end Setup

end Runbook
