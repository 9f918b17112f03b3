import Runbook.Proofs.Run.Steps
/-!
# What actions fail with

An action that runs no other steps fails with an error of its own, never with the failure of a step
that an engine has reported already.  The file goes through these kinds of steps once.

* `StepError.Unwrapped` — an error that holds no wrapped failure, neither itself nor behind lines of
  context;
* `Action.OwnErrors` — an action all of whose errors are unwrapped;
* `RetryPolicy.ownErrors_run` — an action under a policy fails with errors of the action;
* `ownErrors_exec`, `ownErrors_remoteExec`, … — the actions of the kinds that run no other steps.
-/

namespace Runbook

/-! ### Errors without wrapped failures -/

namespace StepError

/-- An error that holds no wrapped failure. -/
def Unwrapped : StepError → Prop
  | .nested _ => False
  | .context _ source => source.Unwrapped
  | _ => True

@[simp] theorem unwrapped_definition (message : String) : (definition message).Unwrapped := trivial

@[simp] theorem unwrapped_exit (status : Int) : (exit status).Unwrapped := trivial

@[simp] theorem unwrapped_io (cause : IoError) : (io cause).Unwrapped := trivial

@[simp] theorem unwrapped_ssh (cause : SshError) : (ssh cause).Unwrapped := trivial

@[simp] theorem unwrapped_scp (cause : ScpError) : (scp cause).Unwrapped := trivial

@[simp] theorem unwrapped_scenario (cause : ScenarioError) : (scenario cause).Unwrapped := trivial

@[simp] theorem unwrapped_within (text : String) (e : StepError) :
    (e.within text).Unwrapped ↔ e.Unwrapped := Iff.rfl

@[simp] theorem unwrapped_ofFault (fault : Condition.Fault) : (ofFault fault).Unwrapped := by
  cases fault <;> trivial

theorem unwrapped_tooDeep : Setup.tooDeep.Unwrapped := trivial

theorem not_unwrapped_nested (f : StepFailure) : ¬(nested f).Unwrapped := fun h => h

end StepError

/-- An error without wrapped failures is wrapped by the engine that meets it. -/
theorem StepFailure.wrap_of_unwrapped {e : StepError} (h : e.Unwrapped) (step : Step)
    (name : String) (vars : Namespace) :
    StepFailure.wrap e step name vars = .mk e (step.summary name) vars := by
  cases e with
  | nested f => exact absurd h (StepError.not_unwrapped_nested f)
  | _ => rfl

/-- An action all of whose errors are unwrapped. -/
def Action.OwnErrors (action : Action) : Prop :=
  ∀ s e t, action s = (.error e, t) → e.Unwrapped

/-! ### Actions on this host -/

theorem ownErrors_done : Action.done.OwnErrors := by
  intro s e t h
  cases h

theorem ownErrors_sleep (seconds : Nat) : (sleepAction seconds).OwnErrors := by
  intro s e t h
  cases h

theorem ownErrors_assign (target : String) (value : Value) :
    (assignAction target value).OwnErrors := by
  intro s e t h
  rw [assignAction] at h
  split at h <;> cases h
  exact StepError.unwrapped_definition _

theorem ownErrors_password (p : Password) : (passwordAction p).OwnErrors := by
  intro s e t h
  rw [passwordAction] at h
  split at h
  · cases h
    exact StepError.unwrapped_definition _
  · dsimp only at h
    split at h <;> cases h

theorem ownErrors_writeFile (ctx : Context) (stepName file contents : String) :
    (writeFileAction ctx stepName file contents).OwnErrors := by
  intro s e t h
  rw [writeFileAction] at h
  split at h
  · cases h
    exact StepError.unwrapped_definition _
  · dsimp only at h
    split at h <;> cases h
    exact StepError.unwrapped_io _

theorem ownErrors_attempt (exec : Exec) (givenName : String) :
    (exec.attempt givenName).OwnErrors := by
  intro s e t h
  rw [Exec.attempt] at h
  split at h
  · cases h
    exact StepError.unwrapped_definition _
  · dsimp only at h
    split at h
    · cases h
      exact StepError.unwrapped_io _
    · split at h <;> cases h <;> exact StepError.unwrapped_exit _

/-! ### Actions under a policy -/

namespace RetryPolicy

/-- What an attempt is settled to fails only with the error of the attempt. -/
theorem settle_error {policy : RetryPolicy} {stepName : String} {result : Except StepError Unit}
    {s t : State} {e : StepError} (h : policy.settle stepName result s = (.error e, t)) :
    result = .error e := by
  unfold settle at h
  split at h
  · rcases result with e' | _
    · dsimp only at h
      split at h <;> cases h
      rfl
    · cases h
  · cases h
    rfl

theorem attempt_error {policy : RetryPolicy} {ctx : Context} {stepName : String}
    {action : Nat → Action} {left number : Nat} {s t : State} {e : StepError}
    (h : policy.attempt ctx stepName action left number s = (.error e, t)) :
    ∃ u, action number s = (.error e, u) := by
  rw [attempt] at h
  rcases haction : action number s with ⟨result, u⟩
  rw [haction] at h
  dsimp only at h
  rcases hsettle : policy.settle stepName result u with ⟨e' | _, v⟩
  · rw [hsettle] at h
    cases h
    exact ⟨u, by rw [settle_error hsettle]⟩
  · rw [hsettle] at h
    cases h

/-- The attempts of an action fail with an error of the action: what is run for a failure does not
replace it. -/
theorem ownErrors_tryFrom (policy : RetryPolicy) (ctx : Context) (stepName : String)
    {action : Nat → Action} (hown : ∀ number, (action number).OwnErrors) (left number : Nat) :
    (policy.tryFrom ctx stepName action left number).OwnErrors := by
  induction left generalizing number with
  | zero =>
    intro s e t h
    unfold tryFrom at h
    rcases hattempt : policy.attempt ctx stepName action 0 number s with ⟨e' | _, u⟩
    · rw [hattempt] at h
      cases h
      obtain ⟨v, hv⟩ := attempt_error hattempt
      exact hown number s e v hv
    · rw [hattempt] at h
      cases h
  | succ left ih =>
    intro s e t h
    unfold tryFrom at h
    rcases hattempt : policy.attempt ctx stepName action (left + 1) number s with ⟨e' | _, u⟩
    · rw [hattempt] at h
      obtain ⟨v, hv⟩ := attempt_error hattempt
      have hmine : e'.Unwrapped := hown number s e' v hv
      dsimp only at h
      split at h
      · cases h
        exact hmine
      · split at h
        · exact ih (number + 1) _ e t h
        · cases h
          exact hmine
    · rw [hattempt] at h
      cases h

theorem ownErrors_run (policy : RetryPolicy) (ctx : Context) (stepName : String)
    {action : Nat → Action} (hown : ∀ number, (action number).OwnErrors) :
    (policy.run ctx stepName action).OwnErrors :=
  ownErrors_tryFrom policy ctx stepName hown policy.attempts 1

end RetryPolicy

theorem ownErrors_exec (ctx : Context) (stepName givenName : String) (exec : Exec) :
    (execAction ctx stepName givenName exec).OwnErrors :=
  RetryPolicy.ownErrors_run exec.retry ctx stepName fun _ => ownErrors_attempt exec givenName

/-! ### Actions on another host -/

@[simp] theorem unwrapped_sessionRefused (cause : SshError) : (sessionRefused cause).Unwrapped :=
  trivial

theorem unwrapped_runInSession {exec : RemoteExec} {command : String} {session : Remote.Session}
    {s : State} {e : StepError} {session' : Remote.Session} {t : State}
    (h : runInSession exec command session s = (.error e, session', t)) : e.Unwrapped := by
  rw [runInSession] at h
  split at h
  · cases h
    exact (StepError.unwrapped_within _ _).2 (StepError.unwrapped_ssh _)
  · split at h
    · cases h
      exact (StepError.unwrapped_within _ _).2 (StepError.unwrapped_ssh _)
    · next session _ =>
      rcases hrun : session.run command with ⟨e' | _, chunks, session''⟩
      · rw [hrun] at h
        cases h
        exact StepError.unwrapped_ssh _
      · rw [hrun] at h
        cases h

theorem ownErrors_remoteAttempt (exec : RemoteExec) (givenName : String)
    (connection : Remote.Connection) : (exec.attempt givenName connection).OwnErrors := by
  intro s e t h
  rw [RemoteExec.attempt] at h
  dsimp only at h
  split at h
  · cases h
    exact StepError.unwrapped_definition _
  · split at h
    · cases h
      exact unwrapped_sessionRefused _
    · next session connection _ =>
      generalize hrun : runInSession exec _ session _ = ran at h
      obtain ⟨result, session', u⟩ := ran
      cases h
      exact unwrapped_runInSession hrun

/-- A step without an engine fails with an error of its own. -/
theorem unwrapped_engine? {ctx : Context} {e : StepError} (h : ctx.engine? = .error e) :
    e.Unwrapped := by
  unfold Context.engine? at h
  split at h <;> cases h
  exact StepError.unwrapped_definition _

theorem ownErrors_remoteExec (ctx : Context) (stepName givenName : String) (exec : RemoteExec) :
    (remoteExecAction ctx stepName givenName exec).OwnErrors := by
  intro s e t h
  rw [remoteExecAction] at h
  rcases hengine : ctx.engine? with e' | nested
  · rw [hengine] at h
    cases h
    exact unwrapped_engine? hengine
  · rw [hengine] at h
    rcases hconnection : s.world.connection with _ | first
    all_goals rw [hconnection] at h
    · cases h
      exact StepError.unwrapped_definition _
    · refine RetryPolicy.ownErrors_run exec.retry ctx stepName (fun _ => ?_) s e t h
      intro s' e' t' h'
      exact ownErrors_remoteAttempt exec givenName _ s' e' t' h'

theorem unwrapped_remoteBytes {file : RemoteFile} {ctx : Context} {s : State} {e : StepError}
    (h : file.bytes ctx s = .error e) : e.Unwrapped := by
  rw [RemoteFile.bytes] at h
  split at h
  · dsimp only at h
    split at h <;> cases h <;> exact StepError.unwrapped_definition _
  · split at h
    · split at h <;> cases h
      exact (StepError.unwrapped_within _ _).2 (StepError.unwrapped_io _)
    · cases h

theorem ownErrors_send (file : RemoteFile) (copier : Copier) (path : String) (bytes : List UInt8)
    (connection : Remote.Connection) : (file.send copier path bytes connection).OwnErrors := by
  intro s e t h
  rw [RemoteFile.send] at h
  split at h
  · cases h
    exact unwrapped_sessionRefused _
  · dsimp only at h
    generalize (copier path bytes _ _).result = result at h
    rcases result with cause | _ <;> cases h
    exact StepError.unwrapped_scp _

theorem ownErrors_remoteFile (ctx : Context) (stepName : String) (file : RemoteFile) :
    (remoteFileAction ctx stepName file).OwnErrors := by
  intro s e t h
  rw [remoteFileAction, RemoteFile.write] at h
  split at h
  · cases h
    exact StepError.unwrapped_definition _
  · split at h
    · cases h
      exact StepError.unwrapped_definition _
    · split at h
      · cases h
        exact StepError.unwrapped_definition _
      · dsimp only at h
        split at h
        · next e' hbytes =>
          cases h
          exact unwrapped_remoteBytes hbytes
        · exact ownErrors_send file _ _ _ _ s e t h

end Runbook
