import Runbook.Proofs.Remote.Balance
import Runbook.Proofs.Run.Attempts
import Runbook.Proofs.Run.Blame
/-!
# Sessions of a run

A run may talk to another host at any depth: in its own steps, in the runs inside them, and in the
lists of steps for failures.  This file says that every session that was opened is closed when a
step returns, and how many sessions a step asks for by itself: a remote command one in each attempt,
and a file one.

* `State.Tidy` — between two states of a run, every session that was granted is closed;
* `RetryPolicy.Account` — what attempts under a policy ask for, apart from the lists that the policy
  runs for failures;
* `RetryPolicy.account_run` — every run under a policy has such an account;
* `Setup.tidy_perform`, `Setup.tidy_run` — actions and whole runs, by induction on the engines that
  may stand inside one another;
* `Setup.remote_steps_close_sessions` — the steps that act on another host.
-/

namespace Runbook

/-! ### What leaves the connection alone -/

theorem State.connection_log (level : Level) (text : String) (s : State) :
    (s.log level text).world.connection = s.world.connection :=
  World.connection_log level text s.world

theorem State.connection_receive (target : String) (chunks : List Chunk) (s : State) :
    (s.receive target chunks).world.connection = s.world.connection := by
  rw [State.receive]
  split <;> rfl

theorem connection_assign (target : String) (value : Value) (s : State) :
    (assignAction target value s).2.world.connection = s.world.connection := by
  rw [assignAction]
  split <;> rfl

theorem connection_password (p : Password) (s : State) :
    (passwordAction p s).2.world.connection = s.world.connection := by
  rw [passwordAction]
  split
  · rfl
  · dsimp only
    split <;> rfl

theorem connection_writeFile (ctx : Context) (stepName file contents : String) (s : State) :
    (writeFileAction ctx stepName file contents s).2.world.connection = s.world.connection := by
  rw [writeFileAction]
  split
  · rfl
  · dsimp only
    split <;> exact s.connection_log _ _

/-- A program of this host has nothing to do with the connection. -/
theorem Exec.connection_attempt (exec : Exec) (givenName : String) (s : State) :
    (exec.attempt givenName s).2.world.connection = s.world.connection := by
  rw [Exec.attempt]
  split
  · rfl
  · dsimp only
    split
    · exact State.connection_log _ _ _
    · split <;> exact (State.connection_receive _ _ _).trans (State.connection_log _ _ _)

namespace Setup

theorem connection_starting (suffix : String) (step : Step) (s : State) :
    (starting suffix step s).world.connection = s.world.connection := by
  rw [starting, announce]
  split
  · rfl
  · exact State.connection_log _ _ _

theorem connection_runHook (setup : Setup) (step : Step) (s : State) :
    (setup.runHook step s).2.world.connection = s.world.connection := by
  rw [runHook_eq]
  split <;> rfl

theorem connection_observe (observed : Bool) (step : Step) (s : State) :
    (observe observed step s).world.connection = s.world.connection := by
  rw [observe]
  split <;> rfl

end Setup

/-- Every session that was granted between the states `s` and `t` is closed. -/
def State.Tidy (s t : State) : Prop :=
  ∃ asked closes, s.Uses asked closes t

namespace State.Tidy

theorem of_eq {s t : State} (h : t.world.connection = s.world.connection) : s.Tidy t :=
  ⟨0, False, .of_eq id h⟩

theorem trans {s t u : State} (h : s.Tidy t) (h' : t.Tidy u) : s.Tidy u := by
  obtain ⟨asked, closes, h⟩ := h
  obtain ⟨more, closes', h'⟩ := h'
  exact ⟨_, _, h.trans h'⟩

theorem isSome_eq {s t : State} (h : s.Tidy t) :
    t.world.connection.isSome = s.world.connection.isSome := by
  obtain ⟨asked, closes, h⟩ := h
  exact h.isSome_eq

end State.Tidy

/-! ### Attempts under a policy -/

namespace RetryPolicy

section Account

variable (policy : RetryPolicy) (ctx : Context) (stepName : String) (action : Nat → Action)

/-- An attempt asks for one session at most, and leaves the connection open; `present` tells whether
there is a connection. -/
def AsksOnce (present : Bool) : Prop :=
  ∀ (number : Nat) (s : State), s.world.connection.isSome = present →
    ∃ asked, asked ≤ 1 ∧ s.Uses asked False (action number s).2

/-- What is done between attempts and behind them leaves no session open. -/
def TidyAside : Prop :=
  ∀ (deed : Deed) (s : State), deed.isAttempt = false →
    s.Tidy (policy.effect ctx stepName action deed s)

/-- From the state `s` to the state `t` deeds are done, and the attempts among them ask for `asked`
sessions and leave the connection open.  What the lists for failures do is not counted: their steps
are steps of their own. -/
inductive Account : (asked : Nat) → State → State → Prop
  | done (s : State) : Account 0 s s
  | attempt {asked more number s t} :
      s.Uses asked False (policy.effect ctx stepName action (.attempt number) s) →
      Account more (policy.effect ctx stepName action (.attempt number) s) t →
      Account (asked + more) s t
  | other {asked deed s t} :
      deed.isAttempt = false →
      Account asked (policy.effect ctx stepName action deed s) t →
      Account asked s t

end Account

variable {policy : RetryPolicy} {ctx : Context} {stepName : String} {action : Nat → Action}

/-- The status of an attempt is kept in a variable. -/
theorem connection_trial (policy : RetryPolicy) (stepName : String) (action : Nat → Action)
    (number : Nat) (s : State) :
    (policy.trial stepName action number s).2.world.connection
      = (action number s).2.world.connection := by
  rw [trial_eq]
  dsimp only
  rw [noteStatus]
  split <;> rfl

theorem uses_attempt {asked number : Nat} {s : State} (h : s.Uses asked False (action number s).2) :
    s.Uses asked False (policy.effect ctx stepName action (.attempt number) s) := by
  rw [State.Uses, effect, connection_trial]
  exact h

/-- Deeds have an account when attempts ask for one session at most. -/
theorem account_perform {s : State}
    (haction : AsksOnce action s.world.connection.isSome)
    (hother : policy.TidyAside ctx stepName action) (deeds : List Deed) :
    ∃ asked, asked ≤ deeds.countP Deed.isAttempt ∧
      policy.Account ctx stepName action asked s
        (policy.perform ctx stepName action deeds s) := by
  induction deeds generalizing s with
  | nil => exact ⟨0, Nat.le_refl 0, .done s⟩
  | cons deed deeds ih =>
    rcases hdeed : deed.isAttempt with _ | _
    · have hstep := (hother deed s hdeed).isSome_eq
      obtain ⟨asked, hasked, haccount⟩ := ih (by rwa [hstep])
      refine ⟨asked, ?_, .other hdeed haccount⟩
      rwa [List.countP_cons_of_neg (by rw [hdeed]; exact Bool.false_ne_true)]
    · cases deed with
      | attempt number =>
        obtain ⟨own, hown, huses⟩ := haction number s rfl
        have hspent : s.Uses own False (policy.effect ctx stepName action (.attempt number) s) :=
          uses_attempt huses
        obtain ⟨asked, hasked, haccount⟩ := ih (by rwa [hspent.isSome_eq])
        refine ⟨own + asked, ?_, .attempt hspent haccount⟩
        rw [List.countP_cons_of_pos hdeed]
        omega
      | _ => cases hdeed

/-- **A run under a policy asks for at most one session an attempt.** -/
theorem account_run {s : State}
    (haction : AsksOnce action s.world.connection.isSome)
    (hother : policy.TidyAside ctx stepName action) :
    ∃ asked, asked ≤ max 1 policy.attempts ∧
      policy.Account ctx stepName action asked s (policy.run ctx stepName action s).2 := by
  obtain ⟨retries, hlt, -, -, hrun⟩ := run_eq_deeds policy ctx stepName action s
  rw [hrun]
  obtain ⟨asked, hasked, haccount⟩ := account_perform haction hother _
  rw [countP_deeds_isAttempt] at hasked
  exact ⟨asked, Nat.le_trans hasked hlt, haccount⟩

/-- Nothing is asked for when the first attempt fails without asking and is not worth another
one. -/
theorem account_run_of_futile {s : State} {e : StepError}
    (hfirst : (action 1 s).1 = .error e) (hfutile : e.isExit = false)
    (huses : s.Uses 0 False (action 1 s).2)
    (haction : AsksOnce action s.world.connection.isSome)
    (hother : policy.TidyAside ctx stepName action) :
    policy.Account ctx stepName action 0 s (policy.run ctx stepName action s).2 := by
  obtain ⟨retries, -, hretried, -, hrun⟩ := run_eq_deeds policy ctx stepName action s
  have honce : retries = 0 := by
    by_contra hmore
    obtain ⟨⟨e', he, hexit⟩, -⟩ := exitFailure_of_settled (hretried 0 (Nat.pos_of_ne_zero hmore))
    have hsame : Except.error e = .error e' := hfirst.symm.trans he
    cases hsame
    rw [hfutile] at hexit
    cases hexit
  subst honce
  rw [hrun]
  have hspent : s.Uses 0 False (policy.effect ctx stepName action (.attempt 1) s) :=
    uses_attempt huses
  -- what follows the attempt has no other attempt in it
  obtain ⟨asked, hasked, haccount⟩ := account_perform (by rwa [hspent.isSome_eq]) hother
    (policy.ending 0 (policy.settled (policy.outcome ctx stepName action s 0)))
  have hnone : asked = 0 := by
    rw [countP_ending] at hasked
    simpa [Deed.isAttempt] using hasked
  subst hnone
  exact .attempt hspent haccount

/-- A run with an account leaves no session open. -/
theorem Account.tidy {asked : Nat} {s t : State} (h : policy.Account ctx stepName action asked s t)
    (hother : policy.TidyAside ctx stepName action) : s.Tidy t := by
  induction h with
  | done s => exact .of_eq rfl
  | attempt huses _ ih => exact State.Tidy.trans ⟨_, _, huses⟩ ih
  | other hdeed _ ih => exact (hother _ _ hdeed).trans ih

/-- Without lists for failures, the account is all that happens to the connection. -/
theorem Account.uses {asked : Nat} {s t : State} (h : policy.Account ctx stepName action asked s t)
    (heach : policy.onEachFailure = none) (hfinal : policy.onFinalFailure = none) :
    s.Uses asked False t := by
  induction h with
  | done s => exact .of_eq id rfl
  | attempt huses _ ih => simpa only [or_self] using huses.trans ih
  | @other asked deed s t hdeed _ ih =>
    have hidle : (policy.effect ctx stepName action deed s).world.connection
        = s.world.connection := by
      cases deed with
      | attempt number => cases hdeed
      | eachFailure left =>
        rw [effect, heach]
        exact s.connection_log _ _
      | pause left => exact s.connection_log _ _
      | finalFailure =>
        rw [effect, hfinal]
        rfl
    have hspent := (State.Uses.of_eq id hidle).trans ih
    simpa only [Nat.zero_add, or_self] using hspent

end RetryPolicy

namespace RemoteExec

/-- What a remote command tries, on the connection that the run has then. -/
def tries (exec : RemoteExec) (givenName : String) (first : Remote.Connection) : Nat → Action :=
  fun _ s => exec.attempt givenName (s.world.connection.getD first) s

theorem asksOnce_tries (exec : RemoteExec) (givenName : String) (first : Remote.Connection) :
    RetryPolicy.AsksOnce (exec.tries givenName first) true := by
  intro number s hpresent
  obtain ⟨connection, hconnection⟩ := Option.isSome_iff_exists.1 hpresent
  obtain ⟨asked, hasked, -, huses⟩ := exec.uses_attempt givenName hconnection
  rw [tries, hconnection]
  exact ⟨asked, hasked, huses⟩

theorem attempt_of_empty (exec : RemoteExec) (givenName : String) (connection : Remote.Connection)
    {s : State} (h : exec.command s.vars = "") :
    exec.attempt givenName connection s = (.error (emptyCommand givenName), s) :=
  if_pos h

end RemoteExec

namespace Setup

/-! ### Runs inside actions -/

section Inside

variable {setup : Setup} {limit : Nat}
  (hlent : ∀ steps suffix s, State.Tidy s (setup.lentRun limit steps suffix s).2)
include hlent

theorem tidy_runFailureStepsIf (label : String) (commands : Option (List Value)) (s : State) :
    s.Tidy (runFailureStepsIf (setup.lends limit) label commands s) := by
  cases commands with
  | none => exact .of_eq rfl
  | some records =>
    rw [runFailureStepsIf]
    rcases hload : (setup.nested limit).loadText (Scenario.document records) with e | steps
    · rw [runFailureSteps, engine?_lends]
      dsimp only
      rw [hload]
      exact .of_eq (s.connection_log _ _)
    · have hran : s.Tidy (setup.lentRun limit steps "" (loaded steps s)).2 :=
        (State.Tidy.of_eq (s.connection_log _ _)).trans (hlent steps "" _)
      rw [runFailureSteps_of_loadText hload]
      generalize setup.lentRun limit steps "" (loaded steps s) = ran at hran
      obtain ⟨e | _, t⟩ := ran
      · exact hran.trans (.of_eq (t.connection_log _ _))
      · exact hran

theorem tidyAside (policy : RetryPolicy) (stepName : String) (action : Nat → Action) :
    policy.TidyAside (setup.lends limit) stepName action := by
  intro deed s hdeed
  cases deed with
  | attempt number => cases hdeed
  | eachFailure left =>
    exact (State.Tidy.of_eq (s.connection_log _ _)).trans (tidy_runFailureStepsIf hlent _ _ _)
  | pause left => exact .of_eq (s.connection_log _ _)
  | finalFailure => exact tidy_runFailureStepsIf hlent _ _ s

theorem tidy_runCommands (records : List Value) (s : State) :
    s.Tidy (runCommands (setup.lends limit) records s).2 := by
  rcases hload : (setup.nested limit).loadText (Scenario.document records) with e | steps
  · rw [runCommands, engine?_lends]
    dsimp only
    rw [hload]
    exact .of_eq rfl
  · rw [runCommands_of_loadText hload]
    exact (State.Tidy.of_eq (s.connection_log _ _)).trans (hlent steps "" _)

theorem tidy_runEntries (loop : Foreach) (steps : List Step) (entries : List (Value × Value))
    (s : State) : s.Tidy (runEntries (setup.nested limit) loop steps entries s).2 := by
  induction entries generalizing s with
  | nil => exact .of_eq rfl
  | cons entry entries ih =>
    have hentry : State.Tidy { vars := loop.iteration s.vars entry, world := s.world }
        ((setup.nested limit).run steps (keySuffix entry.1)
          { vars := loop.iteration s.vars entry, world := s.world }).2 := hlent steps _ _
    rw [runEntries_cons]
    generalize (setup.nested limit).run steps (keySuffix entry.1) _ = ran at hentry
    obtain ⟨e | _, t⟩ := ran
    · exact hentry
    · have houter : s.Tidy { s with world := t.world } := hentry
      exact houter.trans (ih _)

theorem tidy_foreach (loop : Foreach) (s : State) :
    s.Tidy (foreachAction (setup.lends limit) loop s).2 := by
  rw [foreachAction, engine?_lends]
  dsimp only
  split
  · exact .of_eq rfl
  · split
    · exact .of_eq rfl
    · exact (State.Tidy.of_eq (s.connection_log _ _)).trans (tidy_runEntries hlent loop _ _ _)

theorem tidy_include (stepName : String) (inclusion : Include) (s : State) :
    s.Tidy (includeAction (setup.lends limit) stepName inclusion s).2 := by
  by_cases hfile : included inclusion s.vars = ""
  · rw [includeAction_of_nameless hfile]
    exact .of_eq rfl
  · have hnoticed : s.Tidy (noticed inclusion s) := by
      unfold noticed
      split
      · exact .of_eq (s.connection_log _ _)
      · exact .of_eq rfl
    rw [includeAction_of_ne hfile]
    split
    · exact hnoticed
    · next records _ =>
      -- only the variables differ between the state that is noticed and the one of the records
      have hrecords : ∀ vars, s.Tidy (runCommands (setup.lends limit) records
          { vars, world := (noticed inclusion s).world }).2 := by
        intro vars
        have hinner : (noticed inclusion s).Tidy { vars, world := (noticed inclusion s).world } :=
          .of_eq rfl
        exact (hnoticed.trans hinner).trans (tidy_runCommands hlent records _)
      split
      · have hisolated :=
          hrecords (inclusion.declared.insert parentKey (.obj (noticed inclusion s).vars))
        rw [runIsolated_eq]
        generalize runCommands (setup.lends limit) records _ = ran at hisolated ⊢
        exact hisolated.trans (.of_eq rfl)
      · rw [runMerged]
        exact hrecords _

/-! ### Actions of steps -/

/-- A remote command asks for one session an attempt. -/
theorem account_remoteExec (stepName givenName : String) (exec : RemoteExec)
    {first : Remote.Connection} {s : State} (hfirst : s.world.connection = some first) :
    ∃ asked, asked ≤ max 1 exec.retry.attempts ∧ (exec.command s.vars = "" → asked = 0) ∧
      exec.retry.Account (setup.lends limit) stepName (exec.tries givenName first) asked s
        (remoteExecAction (setup.lends limit) stepName givenName exec s).2 := by
  have haction := exec.asksOnce_tries givenName first
  have hother := tidyAside hlent exec.retry stepName (exec.tries givenName first)
  have hpresent : s.world.connection.isSome = true := by rw [hfirst]; rfl
  rw [remoteExecAction, engine?_lends, hfirst]
  change ∃ asked, _ ∧ _ ∧ exec.retry.Account _ _ _ asked s
    (exec.retry.run (setup.lends limit) stepName (exec.tries givenName first) s).2
  rw [← hpresent] at haction
  by_cases hempty : exec.command s.vars = ""
  · have hattempt : exec.tries givenName first 1 s = (.error (emptyCommand givenName), s) :=
      exec.attempt_of_empty givenName _ hempty
    refine ⟨0, Nat.zero_le _, fun _ => rfl, ?_⟩
    refine RetryPolicy.account_run_of_futile (e := emptyCommand givenName) ?_ rfl ?_ haction hother
    · rw [hattempt]
    · rw [hattempt]
      exact .of_eq id rfl
  · obtain ⟨asked, hasked, haccount⟩ := RetryPolicy.account_run haction hother
    exact ⟨asked, hasked, fun h => absurd h hempty, haccount⟩

theorem tidy_remoteExec (stepName givenName : String) (exec : RemoteExec) (s : State) :
    s.Tidy (remoteExecAction (setup.lends limit) stepName givenName exec s).2 := by
  rcases hconnection : s.world.connection with _ | first
  · rw [remoteExecAction, engine?_lends, hconnection]
    exact .of_eq rfl
  · obtain ⟨asked, -, -, haccount⟩ :=
      account_remoteExec hlent stepName givenName exec hconnection
    exact haccount.tidy (tidyAside hlent exec.retry stepName _)

theorem tidy_exec (stepName givenName : String) (exec : Exec) (s : State) :
    s.Tidy (execAction (setup.lends limit) stepName givenName exec s).2 := by
  have haction : RetryPolicy.AsksOnce (fun _ => exec.attempt givenName)
      s.world.connection.isSome :=
    fun _ u _ => ⟨0, Nat.zero_le 1, .of_eq id (exec.connection_attempt givenName u)⟩
  have hother := tidyAside hlent exec.retry stepName fun _ => exec.attempt givenName
  obtain ⟨asked, -, haccount⟩ := RetryPolicy.account_run haction hother
  exact haccount.tidy hother

/-- **What an action leaves of the connection**, when the runs inside it leave no session open. -/
theorem tidy_perform (step : Step) (s : State) :
    s.Tidy (step.perform (setup.lends limit) s).2 := by
  rw [Step.perform]
  cases step.body with
  | message => exact .of_eq rfl
  | assign target value => exact .of_eq (connection_assign target value s)
  | sleep seconds => exact .of_eq (s.connection_log _ _)
  | password p => exact .of_eq (connection_password p s)
  | writeFile file contents => exact .of_eq (connection_writeFile _ _ file contents s)
  | exec exec => exact tidy_exec hlent _ _ exec s
  | foreach loop => exact tidy_foreach hlent loop s
  | commands records => exact tidy_runCommands hlent records s
  | includeFile inclusion => exact tidy_include hlent _ inclusion s
  | remoteExec exec => exact tidy_remoteExec hlent _ _ exec s
  | remoteFile file =>
    obtain ⟨asked, -, -, huses⟩ := RemoteFile.uses_write file.allows_copier (setup.lends limit)
      step.name s
    exact ⟨asked, _, huses⟩

/-- A step that does not act leaves the connection alone, and so does a hook. -/
theorem tidy_runStep (suffix : String) (step : Step) (s : State) :
    s.Tidy (setup.runStep (setup.lends limit) suffix step s).2 := by
  rcases hcheck : setup.checkRequires step s with e | skips
  · rw [runStep_of_refusal hcheck]
    exact .of_eq rfl
  · cases skips with
    | true =>
      rw [runStep_of_skip hcheck]
      exact .of_eq rfl
    | false =>
      have hstart : s.Tidy (starting suffix step s) := .of_eq (connection_starting suffix step s)
      have hperform := hstart.trans (tidy_perform hlent step (starting suffix step s))
      rw [runStep_of_acts (acts_of_checkRequires hcheck)]
      generalize step.perform (setup.lends limit) (starting suffix step s) = done at hperform
      obtain ⟨e | _, t⟩ := done
      · exact hperform
      · have hhook : s.Tidy (setup.runHook step t).2 :=
          hperform.trans (.of_eq (setup.connection_runHook step t))
        dsimp only
        generalize setup.runHook step t = hooked at hhook
        obtain ⟨e | _, v⟩ := hooked <;> exact hhook

theorem tidy_runSteps (suffix : String) (observed : Bool) (steps : List Step) (s : State) :
    s.Tidy (setup.runSteps (setup.lends limit) suffix observed steps s).2 := by
  induction steps generalizing s with
  | nil => exact .of_eq rfl
  | cons step rest ih =>
    have hobserved : s.Tidy (observe observed step s) := .of_eq (connection_observe observed step s)
    have hstep := hobserved.trans (tidy_runStep hlent suffix step _)
    rw [runSteps]
    generalize setup.runStep (setup.lends limit) suffix step _ = ran at hstep
    obtain ⟨e | _, t⟩ := ran
    · exact hstep
    · exact hstep.trans (ih t)

end Inside

/-- **No run leaves a session open**, however deep the step is that opened it and however the run
ends. -/
theorem tidy_run (setup : Setup) (limit : Nat) (observed : Bool) (steps : List Step)
    (suffix : String) (s : State) : s.Tidy (setup.run limit observed steps suffix s).2 := by
  induction limit generalizing observed steps suffix s with
  | zero =>
    have hlent : ∀ steps suffix s, State.Tidy s (setup.lentRun 0 steps suffix s).2 :=
      fun _ _ _ => .of_eq rfl
    rw [run_eq_runSteps]
    exact tidy_runSteps hlent suffix observed steps s
  | succ limit ih =>
    have hlent : ∀ steps suffix s, State.Tidy s (setup.lentRun (limit + 1) steps suffix s).2 :=
      fun steps suffix s => ih false steps suffix s
    rw [run_eq_runSteps]
    exact tidy_runSteps hlent suffix observed steps s

/-- Neither does a run that is lent to a step. -/
theorem tidy_lentRun (setup : Setup) (limit : Nat) (steps : List Step) (suffix : String)
    (s : State) : s.Tidy (setup.lentRun limit steps suffix s).2 := by
  cases limit with
  | zero => exact .of_eq rfl
  | succ limit => exact setup.tidy_run limit false steps suffix s

/-- **Steps on another host close their sessions.**

* Whatever an engine does with a step, every session that was granted is closed when it returns.
* A remote command asks for at most one session an attempt, for none when its command is empty, and
  never closes the connection.  The steps for its failures are steps of their own; without any, its
  account is all that happens to the connection.
* A file on another host, copied in any way, asks for at most one session, for none when a field is
  missing or there are no contents, and closes the connection exactly when the copy times out.  The
  copy that is played is one of these. -/
theorem remote_steps_close_sessions (setup : Setup) (limit : Nat) (suffix : String) (step : Step)
    (s : State) :
    s.Tidy (setup.runStep (setup.lends limit) suffix step s).2 ∧
    (∀ exec first, step.body = .remoteExec exec → s.world.connection = some first →
      ∃ asked, asked ≤ max 1 exec.retry.attempts ∧ (exec.command s.vars = "" → asked = 0) ∧
        exec.retry.Account (setup.lends limit) step.name (exec.tries step.givenName first) asked s
          (step.perform (setup.lends limit) s).2 ∧
        (exec.retry.onEachFailure = none → exec.retry.onFinalFailure = none →
          s.Uses asked False (step.perform (setup.lends limit) s).2)) ∧
    (∀ file, step.body = .remoteFile file →
      file.Allows file.copier ∧
      step.perform (setup.lends limit) s = file.write file.copier (setup.lends limit) step.name s ∧
      ∀ copier, file.Allows copier →
        ∃ asked, asked ≤ 1 ∧ (file.Lacks (setup.lends limit) s → asked = 0) ∧
          s.Uses asked
            ((file.write copier (setup.lends limit) step.name s).1 = .error (.scp .timeout))
            (file.write copier (setup.lends limit) step.name s).2) := by
  have hlent := setup.tidy_lentRun limit
  refine ⟨tidy_runStep hlent suffix step s, ?_, ?_⟩
  · intro exec first hbody hfirst
    obtain ⟨asked, hasked, hempty, haccount⟩ :=
      account_remoteExec hlent step.name step.givenName exec hfirst
    rw [Step.perform, hbody]
    exact ⟨asked, hasked, hempty, haccount, haccount.uses⟩
  · intro file hbody
    rw [Step.perform, hbody]
    exact ⟨file.allows_copier, rfl, fun copier hcopier =>
      RemoteFile.uses_write hcopier (setup.lends limit) step.name s⟩

/-- A command that may be tried twice. -/
def probing : Step :=
  { givenName := "probe", body := .remoteExec { words := ["true"], retry := { attempts := 2 } } }

/-- A file for another host. -/
def placing : Step :=
  { body := .remoteFile { file := "/f", contents := "x", permissions := "0644" } }

/-- A run on a host on which the first command fails. -/
def onFlaky : State :=
  { vars := []
    world := { connection := some { host := { scripts := [{ failure := some (.exit 1) }, {}] } } } }

/-- A run on a host on which every command waits until its session is closed. -/
def onStuck : State :=
  { vars := []
    world := { connection := some { host := { scripts := [{ steps := [.waitClose] }] } } } }

/-- The command is tried again in a session of its own; the copy of the file times out, which closes
the connection. -/
theorem remote_steps_close_sessions_of_probing :
    onFlaky.Uses 2 False (probing.perform (({} : Setup).lends 0) onFlaky).2 ∧
    onStuck.Uses 1 True (placing.perform (({} : Setup).lends 0) onStuck).2 := by
  constructor
  · obtain ⟨-, hcommands, -⟩ := remote_steps_close_sessions {} 0 "" probing onFlaky
    obtain ⟨asked, -, -, -, halone⟩ := hcommands _ _ rfl rfl
    have huses := halone rfl rfl
    have hplayed : ((probing.perform (({} : Setup).lends 0) onFlaky).2.world.connection).map
        (fun c => c.requests) = some 2 := by
      decide +kernel
    obtain ⟨last, hlast, hbalance⟩ := huses.exists_balance rfl
    rw [hlast] at hplayed
    have hrequests : last.requests = 0 + asked := hbalance.requests
    have htwo : last.requests = 2 := Option.some.inj hplayed
    obtain rfl : asked = 2 := by omega
    exact huses
  · obtain ⟨-, -, hfiles⟩ := remote_steps_close_sessions {} 0 "" placing onStuck
    obtain ⟨hallows, hperform, hcopies⟩ := hfiles _ rfl
    obtain ⟨asked, -, -, huses⟩ := hcopies _ hallows
    rw [← hperform] at huses
    have hplayed : ((placing.perform (({} : Setup).lends 0) onStuck).2.world.connection).map
        (fun c => (c.requests, c.closed)) = some (1, true) := by
      decide +kernel
    obtain ⟨last, hlast, hbalance⟩ := huses.exists_balance rfl
    rw [hlast] at hplayed
    have hrequests : last.requests = 0 + asked := hbalance.requests
    obtain ⟨hone, hclosed⟩ := Prod.mk.inj (Option.some.inj hplayed)
    -- the connection was open before, so it is the timeout that has closed it
    have htimeout := (hbalance.closed.1 hclosed).resolve_left nofun
    obtain rfl : asked = 1 := by omega
    rwa [eq_true htimeout] at huses

end Setup

end Runbook
