import Mathlib.Data.List.Forall2
import Runbook.Proofs.Remote.CommandLines
import Runbook.Proofs.Run.Sessions
/-!
# Redacted commands

A remote command may be shown as something else than itself.  Two runs are compared here whose steps
differ in the words of such commands only: the far ends get different commands, and nothing else
tells the runs apart.

* `State.veiled` — a state without the commands that its sessions have run;
* `Alike`, `Action.Alike` — two ends of runs with the same result, whose states differ in those
  commands at most, and two actions that lead from states that differ so to such ends;
* `RemoteExec.ShownAlike`, `Step.ShownAlike` — two commands with different words and the same text
  to show for them, and two steps that are the same or have two such commands;
* `RemoteExec.HandledAlike.alike_attempt` — attempts of two such commands;
* `RetryPolicy.alike_run` — attempts under a policy;
* `Setup.alike_perform`, `Setup.alike_runSteps` — actions of steps and lists of steps, when the runs
  inside them are alike;
* `Setup.redacted_runs_alike` — whole runs, by induction on the engines that may stand inside one
  another.

What a far end does is given by its script, which does not look at the command.
-/

namespace Runbook

/-! ### States without commands -/

namespace Remote

/-- A call without the command that it runs. -/
def Call.veiled : Call → Call
  | .run _ => .run ""
  | call => call

/-- A session without the commands that it has run. -/
def Session.veiled (session : Session) : Session :=
  { session with calls := session.calls.map Call.veiled }

/-- A connection without the commands that its sessions have run. -/
def Connection.veiled (connection : Connection) : Connection :=
  { connection with sessions := connection.sessions.map Session.veiled }

theorem Session.veiled_note (call : Call) (session : Session) :
    (session.note call).veiled = session.veiled.note call.veiled := by
  simp [veiled, note]

theorem Connection.veiled_keep (session : Session) (connection : Connection) :
    (connection.keep session).veiled = connection.veiled.keep session.veiled := by
  simp [veiled, keep]

theorem Connection.veiled_close (connection : Connection) :
    connection.close.2.veiled = connection.veiled.close.2 := rfl

/-- How a request for a session is answered has nothing to do with commands. -/
theorem Connection.openSession_veiled (connection : Connection) :
    connection.veiled.openSession
      = (connection.openSession.1, connection.openSession.2.veiled) := by
  unfold openSession
  split <;> simp_all [veiled, nextSession]

/-- Requests for a session on connections that differ in commands only. -/
theorem Connection.openSession_of_veiled {connection connection' : Connection}
    (h : connection.veiled = connection'.veiled) :
    ∃ answer asked asked', connection.openSession = (answer, asked) ∧
      connection'.openSession = (answer, asked') ∧ asked.veiled = asked'.veiled := by
  have hopened := connection.openSession_veiled
  rw [h, connection'.openSession_veiled] at hopened
  obtain ⟨hanswer, hasked⟩ := Prod.mk.inj hopened
  exact ⟨connection.openSession.1, connection.openSession.2, connection'.openSession.2, rfl,
    Prod.ext hanswer rfl, hasked.symm⟩

end Remote

namespace State

/-- A state without the commands that its sessions have run. -/
def veiled (s : State) : State :=
  { s with world := { s.world with
      connection := s.world.connection.map Remote.Connection.veiled } }

section Fields

variable {s t : State} (h : s.veiled = t.veiled)

include h

theorem vars_eq_of_veiled : s.vars = t.vars :=
  congrArg (·.vars) h

theorem files_eq_of_veiled : s.world.files = t.world.files :=
  congrArg (·.world.files) h

/-- The two states have no connection, or connections that differ in commands only. -/
theorem connection_of_veiled :
    s.world.connection = none ∧ t.world.connection = none ∨
      ∃ connection connection', s.world.connection = some connection ∧
        t.world.connection = some connection' ∧ connection.veiled = connection'.veiled := by
  have hmaps : s.world.connection.map Remote.Connection.veiled
      = t.world.connection.map Remote.Connection.veiled := congrArg (·.world.connection) h
  cases hs : s.world.connection with
  | none =>
    rw [hs] at hmaps
    exact .inl ⟨rfl, Option.map_eq_none_iff.1 hmaps.symm⟩
  | some connection =>
    rw [hs] at hmaps
    obtain ⟨connection', ht, hveiled⟩ := Option.map_eq_some_iff.1 hmaps.symm
    exact .inr ⟨connection, connection', rfl, ht, hveiled.symm⟩

/-- Other variables in two states with the same world. -/
theorem veiled_vars (vars : Namespace) :
    ({ vars, world := s.world } : State).veiled = ({ vars, world := t.world } : State).veiled :=
  congrArg (fun u : State => ({ vars, world := u.world } : State)) h

end Fields

theorem veiled_log (level : Level) (text : String) (s : State) :
    (s.log level text).veiled = s.veiled.log level text := by
  unfold log World.log
  dsimp only
  have hshows : (s.veiled.world.record (.log level text)).shows level
      = (s.world.record (.log level text)).shows level := rfl
  rw [hshows]
  split <;> rfl

/-- The same line in two states that differ in commands only. -/
theorem log_of_veiled {s t : State} (h : s.veiled = t.veiled) (level : Level) (text : String) :
    (s.log level text).veiled = (t.log level text).veiled := by
  rw [veiled_log, veiled_log, h]

theorem veiled_receive (target : String) (chunks : List Chunk) (s : State) :
    (s.receive target chunks).veiled = s.veiled.receive target chunks := by
  unfold receive
  split <;> rfl

theorem veiled_connect (connection : Remote.Connection) (s : State) :
    (s.connect connection).veiled = s.veiled.connect connection.veiled := rfl

end State

/-- Two ends of runs that have the same result, and whose states differ in the commands of sessions
at most. -/
def Alike {α : Type} (p q : α × State) : Prop :=
  ∃ result s t, p = (result, s) ∧ q = (result, t) ∧ s.veiled = t.veiled

theorem Alike.of_veiled {α : Type} {s t : State} (result : α) (h : s.veiled = t.veiled) :
    Alike (result, s) (result, t) :=
  ⟨result, s, t, rfl, rfl, h⟩

/-! ### Actions that have nothing to do with commands -/

namespace Action

/-- The action does the same with the commands of sessions and without them. -/
def Blind (action : Action) : Prop :=
  ∀ s, action s.veiled = ((action s).1, (action s).2.veiled)

/-- An action and another one lead from states that differ in commands to ends that are alike. -/
def Alike (action other : Action) : Prop :=
  ∀ s t : State, s.veiled = t.veiled → Runbook.Alike (action s) (other t)

theorem Blind.alike {action : Action} (h : action.Blind) : action.Alike action := by
  intro s t hst
  have hs := h s
  rw [hst, h t] at hs
  obtain ⟨hresult, hstate⟩ := Prod.mk.inj hs
  exact ⟨(action s).1, (action s).2, (action t).2, rfl, Prod.ext hresult rfl, hstate.symm⟩

end Action

theorem blind_assign (target : String) (value : Value) : (assignAction target value).Blind := by
  intro s
  unfold assignAction
  split <;> rfl

theorem blind_sleep (seconds : Nat) : (sleepAction seconds).Blind := by
  intro s
  unfold sleepAction
  rw [← State.veiled_log]
  rfl

theorem blind_password (p : Password) : (passwordAction p).Blind := by
  intro s
  unfold passwordAction
  dsimp only
  split
  · rfl
  · split <;> rfl

theorem blind_writeFile (ctx : Context) (stepName file contents : String) :
    (writeFileAction ctx stepName file contents).Blind := by
  intro s
  unfold writeFileAction
  dsimp only
  split
  · rfl
  · rw [← State.veiled_log]
    have hwrite : ∀ u : State, u.veiled.world.files = u.world.files := fun _ => rfl
    rw [hwrite]
    have hvars : s.veiled.vars = s.vars := rfl
    rw [hvars]
    split <;> rfl

theorem Exec.blind_attempt (exec : Exec) (givenName : String) :
    (exec.attempt givenName).Blind := by
  intro s
  have hvars : s.veiled.vars = s.vars := rfl
  unfold Exec.attempt
  rw [hvars]
  split
  · rfl
  · dsimp only
    rw [← State.veiled_log]
    generalize s.log .info _ = u
    have hfiles : u.veiled.world.files = u.world.files := rfl
    have hprograms : u.veiled.world.programs = u.world.programs := rfl
    rw [hfiles, hprograms]
    split
    · rfl
    · next finished _ =>
      have hreceived := State.veiled_receive exec.target finished.chunks
        { u with world := { u.world with files := { u.world.files with disk := finished.disk } } }
      split <;> exact Prod.ext rfl hreceived.symm

/-! ### Attempts of remote commands -/

/-- Two remote commands that differ in their words only, of which there are some, and that show the
same text in the place of them. -/
structure RemoteExec.ShownAlike (exec other : RemoteExec) : Prop where
  hidden : exec.shownAs ≠ ""
  shownAs : exec.shownAs = other.shownAs
  words : exec.words ≠ []
  otherWords : other.words ≠ []
  target : exec.target = other.target
  environment : exec.environment = other.environment
  retry : exec.retry = other.retry

namespace RemoteExec

/-- The line of a command that has words is not empty. -/
theorem command_ne_empty {exec : RemoteExec} (h : exec.words ≠ []) (vars : Namespace) :
    exec.command vars ≠ "" := by
  intro hempty
  have hsplit := Shell.split_commandLine (exec.words.map (interpolate vars))
  have hnone : Shell.split (exec.command vars) = .ok [] := by rw [hempty]; rfl
  have hwords := Except.ok.inj (hsplit.symm.trans hnone)
  exact h (List.map_eq_nil_iff.1 hwords)

/-- Two remote commands are handled alike: they show the same text, and they have a line or have
none together. -/
structure HandledAlike (exec other : RemoteExec) : Prop where
  shown : ∀ vars, exec.shown vars (exec.command vars) = other.shown vars (other.command vars)
  empty : ∀ vars, exec.command vars = "" ↔ other.command vars = ""
  target : exec.target = other.target
  environment : exec.environment = other.environment
  retry : exec.retry = other.retry

theorem HandledAlike.refl (exec : RemoteExec) : exec.HandledAlike exec :=
  ⟨fun _ => rfl, fun _ => Iff.rfl, rfl, rfl, rfl⟩

/-- A command that is not shown has no part in what is shown. -/
theorem ShownAlike.handledAlike {exec other : RemoteExec} (h : exec.ShownAlike other) :
    exec.HandledAlike other where
  shown vars := by
    have hother : other.shownAs ≠ "" := h.shownAs ▸ h.hidden
    rw [shown, shown, if_neg h.hidden, if_neg hother, h.shownAs]
  empty vars :=
    iff_of_false (command_ne_empty h.words vars) (command_ne_empty h.otherWords vars)
  target := h.target
  environment := h.environment
  retry := h.retry

/-- A session that has run one command, or another one. -/
theorem veiled_run (session : Remote.Session) (command command' : String) :
    (session.run command).2.2.veiled = (session.run command').2.2.veiled := by
  simp [Remote.Session.run, Remote.Session.veiled, Remote.Session.note, Remote.Call.veiled]

/-- Two commands in the same session. -/
theorem HandledAlike.alike_runInSession {exec other : RemoteExec} (h : exec.HandledAlike other)
    (command command' : String) (session : Remote.Session) {s t : State}
    (hst : s.veiled = t.veiled) :
    ∃ result kept kept' u v, runInSession exec command session s = (result, kept, u) ∧
      runInSession other command' session t = (result, kept', v) ∧
      kept.veiled = kept'.veiled ∧ u.veiled = v.veiled := by
  unfold runInSession
  rw [State.vars_eq_of_veiled hst, h.environment, h.target]
  split
  · exact ⟨_, _, _, _, _, rfl, rfl, rfl, hst⟩
  · split
    · exact ⟨_, _, _, _, _, rfl, rfl, rfl, hst⟩
    · next set _ =>
      refine ⟨_, _, _, _, _, rfl, rfl, veiled_run set command command', ?_⟩
      rw [State.veiled_receive, State.veiled_receive, hst]

/-- A state in which a command has been shown. -/
def showing (address shown : String) (s : State) : State :=
  let s := s.log .info ("Executing on " ++ address ++ ": " ++ shown)
  { s with world := s.world.put .stdout (Text.Utf8.ofString (address ++ "$ " ++ shown ++ "\n")) }

theorem veiled_showing (address shown : String) (s : State) :
    (showing address shown s).veiled = showing address shown s.veiled := by
  unfold showing
  dsimp only
  rw [← State.veiled_log]
  rfl

/-- An attempt of a command that has a line. -/
theorem attempt_of_ne {exec : RemoteExec} {s : State} (h : exec.command s.vars ≠ "")
    (givenName : String) (connection : Remote.Connection) :
    exec.attempt givenName connection s
      = (let shown := showing connection.host.address (exec.shown s.vars (exec.command s.vars)) s
        match connection.openSession with
        | (.error e, asked) => (.error (sessionRefused e), shown.connect asked)
        | (.ok session, asked) =>
          let ran := runInSession exec (exec.command s.vars) session shown
          (ran.1, ran.2.2.connect (asked.keep ran.2.1.close.2))) :=
  if_neg h

/-- **Two attempts.**  On connections that differ in commands only, attempts of two commands that
are handled alike end alike. -/
theorem HandledAlike.alike_attempt {exec other : RemoteExec} (h : exec.HandledAlike other)
    (givenName : String) {connection connection' : Remote.Connection}
    (hconnection : connection.veiled = connection'.veiled) :
    Action.Alike (exec.attempt givenName connection) (other.attempt givenName connection') := by
  intro s t hst
  have hvars := State.vars_eq_of_veiled hst
  by_cases hempty : exec.command s.vars = ""
  · have hempty' : other.command t.vars = "" := (h.empty _).1 (hvars ▸ hempty)
    rw [exec.attempt_of_empty givenName _ hempty, other.attempt_of_empty givenName _ hempty']
    exact .of_veiled _ hst
  have hne : other.command t.vars ≠ "" := fun h' => hempty (hvars ▸ (h.empty _).2 h')
  have hhost : connection.host = connection'.host := congrArg (·.host) hconnection
  rw [attempt_of_ne hempty, attempt_of_ne hne, hvars, hhost, h.shown]
  dsimp only
  have hshowing := congrArg (showing connection'.host.address
    (other.shown t.vars (other.command t.vars))) hst
  rw [← veiled_showing, ← veiled_showing] at hshowing
  generalize showing _ _ s = s' at hshowing ⊢
  generalize showing _ _ t = t' at hshowing ⊢
  obtain ⟨answer, asked, asked', hopened, hopened', hasked⟩ :=
    Remote.Connection.openSession_of_veiled hconnection
  rw [hopened, hopened']
  rcases answer with e | session
  · refine .of_veiled _ ?_
    rw [State.veiled_connect, State.veiled_connect, hshowing, hasked]
  · obtain ⟨result, kept, kept', u, v, hrun, hrun', hkept, huv⟩ :=
      h.alike_runInSession (exec.command t.vars) (other.command t.vars) session hshowing
    dsimp only
    rw [hrun, hrun']
    refine .of_veiled _ ?_
    have hclosed : kept.close.2.veiled = kept'.close.2.veiled := by
      rw [Remote.Session.close, Remote.Session.veiled_note, hkept, ← Remote.Session.veiled_note]
      rfl
    rw [State.veiled_connect, State.veiled_connect, Remote.Connection.veiled_keep,
      Remote.Connection.veiled_keep, hclosed, hasked, huv]

end RemoteExec

/-! ### Copies -/

/-- What a copy does has nothing to do with the other sessions of its connection; of the connection
it decides only whether it is closed. -/
theorem Copy.Client.copyFile_leaves (client : Client) (source : Source) (path permissions : String)
    (session : Remote.Session) :
    ∃ result timedOut kept, ∀ connection,
      client.copyFile source path permissions session connection
        = { result, timedOut, session := kept
            connection := if timedOut then connection.close.2 else connection } := by
  unfold copyFile
  split
  · exact ⟨_, false, session, fun _ => rfl⟩
  · unfold copy copyIn
    split
    · exact ⟨_, false, session, fun _ => rfl⟩
    · exact ⟨_, false, session, fun _ => rfl⟩
    · unfold transferIn finish
      dsimp only
      split
      · exact ⟨_, true, _, fun _ => rfl⟩
      · exact ⟨_, false, _, fun _ => rfl⟩

namespace RemoteFile

theorem veiled_await (file : RemoteFile) (bytes : List UInt8) (session : Remote.Session)
    {s t : State} (hst : s.veiled = t.veiled) :
    (file.await bytes session s).veiled = (file.await bytes session t).veiled := by
  have hclock : s.world.clock = t.world.clock := congrArg (·.world.clock) hst
  unfold await
  rw [hclock]
  split
  · exact congrArg (State.halt noDeadline) hst
  · exact hst

/-- A request for a session and the copy in it, on connections that differ in commands only. -/
theorem alike_send (file : RemoteFile) (path : String) (bytes : List UInt8)
    {connection connection' : Remote.Connection}
    (hconnection : connection.veiled = connection'.veiled) :
    Action.Alike (file.send file.copier path bytes connection)
      (file.send file.copier path bytes connection') := by
  intro s t hst
  obtain ⟨answer, asked, asked', hopened, hopened', hasked⟩ :=
    Remote.Connection.openSession_of_veiled hconnection
  unfold send
  rw [hopened, hopened']
  rcases answer with e | session
  · refine .of_veiled _ ?_
    rw [State.veiled_connect, State.veiled_connect, hst, hasked]
  · obtain ⟨result, timedOut, kept, hcopy⟩ :=
      file.client.copyFile_leaves { bytes } path file.permissions session
    have hawait := file.veiled_await bytes session hst
    dsimp only
    rw [copier, hcopy, copier, hcopy]
    refine .of_veiled _ ?_
    rw [State.veiled_connect, State.veiled_connect, Remote.Connection.veiled_keep,
      Remote.Connection.veiled_keep]
    cases timedOut with
    | true =>
      dsimp only
      rw [if_pos rfl, if_pos rfl, if_pos rfl, if_pos rfl, State.log_of_veiled hawait,
        Remote.Connection.veiled_close, Remote.Connection.veiled_close, hasked]
    | false =>
      dsimp only
      rw [if_neg Bool.false_ne_true, if_neg Bool.false_ne_true, if_neg Bool.false_ne_true,
        if_neg Bool.false_ne_true, hawait, hasked]

/-- Contents are read from variables and files. -/
theorem bytes_eq (file : RemoteFile) (ctx : Context) {s t : State} (hst : s.veiled = t.veiled) :
    file.bytes ctx s = file.bytes ctx t := by
  unfold bytes
  rw [State.vars_eq_of_veiled hst, State.files_eq_of_veiled hst]

theorem alike_write (file : RemoteFile) (ctx : Context) (stepName : String) :
    Action.Alike (remoteFileAction ctx stepName file) (remoteFileAction ctx stepName file) := by
  intro s t hst
  unfold remoteFileAction write
  rw [State.vars_eq_of_veiled hst, file.bytes_eq ctx hst]
  split
  · exact .of_veiled _ hst
  · split
    · exact .of_veiled _ hst
    · rcases State.connection_of_veiled hst with
        ⟨hnone, hnone'⟩ | ⟨connection, connection', hsome, hsome', hveiled⟩
      · rw [hnone, hnone']
        exact .of_veiled _ hst
      · rw [hsome, hsome']
        dsimp only
        split
        · exact .of_veiled _ hst
        · exact file.alike_send _ _ hveiled s t hst

end RemoteFile

/-! ### Attempts under a policy -/

/-- Steps for failures lead from states that differ in commands only to such states again. -/
def Context.VeilsFailures (ctx : Context) : Prop :=
  ∀ (label : String) (commands : Option (List Value)) (s t : State), s.veiled = t.veiled →
    (runFailureStepsIf ctx label commands s).veiled
      = (runFailureStepsIf ctx label commands t).veiled

namespace RetryPolicy

variable {policy : RetryPolicy} {ctx : Context} {stepName : String} {action other : Nat → Action}

theorem alike_trial (haction : ∀ number, (action number).Alike (other number)) (number : Nat) :
    Action.Alike (policy.trial stepName action number) (policy.trial stepName other number) := by
  intro s t hst
  obtain ⟨result, u, v, hu, hv, huv⟩ := haction number s t hst
  rw [trial_eq, trial_eq, hu, hv]
  refine .of_veiled _ ?_
  unfold noteStatus
  dsimp only
  split
  · exact congrArg (State.set (statusKey stepName) (.int (keptStatus result))) huv
  · exact huv

theorem veiled_pause {s t : State} (hst : s.veiled = t.veiled) (policy : RetryPolicy) (left : Nat) :
    (policy.pause left s).veiled = (policy.pause left t).veiled := by
  exact congrArg (State.record (.sleep policy.delay))
    (State.log_of_veiled hst .info (retryNotice left))

/-- Attempts from one on, when the ones behind it end alike. -/
theorem alike_tryFrom_of_rest (haction : ∀ number, (action number).Alike (other number))
    (hfailures : ctx.VeilsFailures) {left number : Nat}
    (hrest : 1 < left → Action.Alike (policy.tryFrom ctx stepName action (left - 1) (number + 1))
      (policy.tryFrom ctx stepName other (left - 1) (number + 1))) :
    Action.Alike (policy.tryFrom ctx stepName action left number)
      (policy.tryFrom ctx stepName other left number) := by
  intro s t hst
  have htrial : Action.Alike (policy.trial stepName action number)
    (policy.trial stepName other number) := alike_trial haction number
  obtain ⟨result, u, v, hu, hv, huv⟩ := htrial s t hst
  rw [tryFrom_eq, tryFrom_eq, hu, hv]
  rcases result with e | _
  · have heach := hfailures "OnEachFailure" policy.onEachFailure _ _
      (State.log_of_veiled huv .info (failureNotice left))
    dsimp only [effect]
    by_cases hlast : left ≤ 1
    · rw [if_pos hlast, if_pos hlast]
      exact .of_veiled _ (hfailures "OnFinalFailure" policy.onFinalFailure _ _ heach)
    · rw [if_neg hlast, if_neg hlast]
      split
      · exact hrest (Nat.not_le.1 hlast) _ _ (veiled_pause heach policy _)
      · exact .of_veiled _ heach
  · exact .of_veiled _ huv

theorem alike_tryFrom (haction : ∀ number, (action number).Alike (other number))
    (hfailures : ctx.VeilsFailures) (left number : Nat) :
    Action.Alike (policy.tryFrom ctx stepName action left number)
      (policy.tryFrom ctx stepName other left number) := by
  induction left generalizing number with
  | zero => exact alike_tryFrom_of_rest haction hfailures fun h => absurd h (Nat.not_lt_zero 1)
  | succ left ih => exact alike_tryFrom_of_rest haction hfailures fun _ => ih (number + 1)

/-- **Every policy.**  Actions whose attempts end alike end alike under it. -/
theorem alike_run (policy : RetryPolicy)
    (haction : ∀ number, (action number).Alike (other number))
    (hfailures : ctx.VeilsFailures) (stepName : String) :
    Action.Alike (policy.run ctx stepName action) (policy.run ctx stepName other) :=
  alike_tryFrom haction hfailures policy.attempts 1

end RetryPolicy

/-! ### Steps that are shown alike -/

/-- Two steps that are the same, or remote commands that are shown alike under one name; their
records may differ, but not the places of these. -/
inductive Step.ShownAlike : Step → Step → Prop
  | same (step : Step) : ShownAlike step step
  | redacted {step other : Step} {exec exec' : RemoteExec} :
      step.body = .remoteExec exec →
      other.body = .remoteExec exec' →
      exec.ShownAlike exec' →
      step.givenName = other.givenName →
      step.description = other.description →
      step.requires = other.requires →
      step.callsAfter = other.callsAfter →
      step.origin.map Origin.id = other.origin.map Origin.id →
      ShownAlike step other

namespace Step.ShownAlike

variable {step other : Step}

/-- What a step is beside its action. -/
theorem eq_beside (h : step.ShownAlike other) :
    step.name = other.name ∧ step.summary = other.summary ∧
      step.description = other.description ∧ step.requires = other.requires ∧
      step.callsAfter = other.callsAfter := by
  cases h with
  | same => exact ⟨rfl, rfl, rfl, rfl, rfl⟩
  | redacted hbody hbody' _ hname hdescription hrequires hcalls hid =>
    have hkind : step.kind = other.kind := by
      rw [Step.kind, Step.kind, hbody, hbody']
      rfl
    have hsummary : step.summary = other.summary := by
      funext name
      rw [Step.summary, Step.summary, hid, hkind]
    refine ⟨?_, hsummary, hdescription, hrequires, hcalls⟩
    unfold Step.name
    rw [hname]
    generalize step.origin = origin at hid
    generalize other.origin = origin' at hid
    cases origin with
    | none =>
      obtain rfl : origin' = none := Option.map_eq_none_iff.1 hid.symm
      rfl
    | some origin =>
      obtain ⟨origin', rfl, hsame⟩ := Option.map_eq_some_iff.1 hid.symm
      dsimp only
      rw [hsame]

end Step.ShownAlike

namespace Setup

/-! ### Actions -/

/-- A step reads its condition in the variables and the files. -/
theorem checkRequires_eq_of_veiled (setup : Setup) {step other : Step}
    (hstep : step.ShownAlike other) {s t : State} (hst : s.veiled = t.veiled) :
    setup.checkRequires step s = setup.checkRequires other t := by
  obtain ⟨-, -, -, hrequires, -⟩ := hstep.eq_beside
  unfold checkRequires
  rw [hrequires, State.vars_eq_of_veiled hst, State.files_eq_of_veiled hst]

theorem alike_runHook (setup : Setup) {step other : Step} (hstep : step.ShownAlike other) :
    Action.Alike (setup.runHook step) (setup.runHook other) := by
  intro s t hst
  obtain ⟨-, -, -, -, hcalls⟩ := hstep.eq_beside
  have hhook : setup.hook? step = setup.hook? other := by
    unfold hook?
    rw [hcalls]
  rw [runHook_eq, runHook_eq, hhook, hcalls, State.vars_eq_of_veiled hst]
  split
  · exact .of_veiled _ hst
  · have hrecorded : (s.record (.hook other.callsAfter t.vars)).veiled
        = (t.record (.hook other.callsAfter t.vars)).veiled :=
      congrArg (State.record (.hook other.callsAfter t.vars)) hst
    exact .of_veiled _ (State.veiled_vars hrecorded _)

theorem veiled_starting (suffix : String) {step other : Step} (hstep : step.ShownAlike other)
    {s t : State} (hst : s.veiled = t.veiled) :
    (starting suffix step s).veiled = (starting suffix other t).veiled := by
  obtain ⟨hname, -, hdescription, -, -⟩ := hstep.eq_beside
  have hlowered : (s.set (skipKey (step.name ++ suffix)) (.bool false)).veiled
      = (t.set (skipKey (other.name ++ suffix)) (.bool false)).veiled := by
    rw [hname]
    exact congrArg (State.set (skipKey (other.name ++ suffix)) (.bool false)) hst
  have hdescribe : step.describe = other.describe := by
    funext vars
    rw [Step.describe, Step.describe, hdescription]
  unfold starting announce
  dsimp only
  rw [State.vars_eq_of_veiled hlowered, hdescribe]
  split
  · exact hlowered
  · exact State.log_of_veiled hlowered _ _

theorem veiled_observe (observed : Bool) {step other : Step} (hstep : step.ShownAlike other)
    {s t : State} (hst : s.veiled = t.veiled) :
    (observe observed step s).veiled = (observe observed other t).veiled := by
  obtain ⟨hname, -, -, -, -⟩ := hstep.eq_beside
  unfold observe
  rw [hname, State.vars_eq_of_veiled hst]
  split
  · exact congrArg (State.record _) hst
  · exact hst

theorem veiled_loaded (steps : List Step) {s t : State} (hst : s.veiled = t.veiled) :
    (loaded steps s).veiled = (loaded steps t).veiled :=
  State.log_of_veiled hst _ _

theorem veiled_noticed (inclusion : Include) {s t : State} (hst : s.veiled = t.veiled) :
    (noticed inclusion s).veiled = (noticed inclusion t).veiled := by
  unfold noticed
  rw [State.vars_eq_of_veiled hst]
  split
  · exact State.log_of_veiled hst _ _
  · exact hst

section Inside

variable {setup : Setup} {limit : Nat}
  (hlent : ∀ steps suffix,
    Action.Alike (setup.lentRun limit steps suffix) (setup.lentRun limit steps suffix))

include hlent

theorem veilsFailures : (setup.lends limit).VeilsFailures := by
  intro label commands s t hst
  rcases commands with _ | records
  · exact hst
  · show (runFailureSteps _ label records s).veiled = (runFailureSteps _ label records t).veiled
    rcases hload : (setup.nested limit).loadText (Scenario.document records) with e | steps
    · rw [runFailureSteps, runFailureSteps, engine?_lends]
      dsimp only
      rw [hload]
      exact State.log_of_veiled hst _ _
    · rw [runFailureSteps_of_loadText hload, runFailureSteps_of_loadText hload]
      obtain ⟨result, u, v, hu, hv, huv⟩ := hlent steps "" _ _ (veiled_loaded steps hst)
      rw [hu, hv]
      rcases result with e | _
      · exact State.log_of_veiled huv _ _
      · exact huv

theorem alike_runCommands (records : List Value) :
    Action.Alike (runCommands (setup.lends limit) records)
      (runCommands (setup.lends limit) records) := by
  intro s t hst
  rcases hload : (setup.nested limit).loadText (Scenario.document records) with e | steps
  · rw [runCommands, runCommands, engine?_lends]
    dsimp only
    rw [hload]
    exact .of_veiled _ hst
  · rw [runCommands_of_loadText hload, runCommands_of_loadText hload]
    exact hlent steps "" _ _ (veiled_loaded steps hst)

theorem alike_runEntries (loop : Foreach) (steps : List Step) (entries : List (Value × Value)) :
    Action.Alike (runEntries (setup.nested limit) loop steps entries)
      (runEntries (setup.nested limit) loop steps entries) := by
  induction entries with
  | nil => exact fun _ _ hst => .of_veiled _ hst
  | cons entry entries ih =>
    intro s t hst
    have hvars := State.vars_eq_of_veiled hst
    obtain ⟨result, u, v, hu, hv, huv⟩ := hlent steps (keySuffix entry.1) _ _
      (State.veiled_vars hst (loop.iteration s.vars entry))
    have hrun : (setup.nested limit).run = setup.lentRun limit := rfl
    rw [runEntries_cons, runEntries_cons, hrun, hu, ← hvars, hv]
    have houter := State.veiled_vars huv s.vars
    rcases result with e | _
    · exact .of_veiled _ houter
    · exact ih _ _ houter

theorem alike_foreach (loop : Foreach) :
    Action.Alike (foreachAction (setup.lends limit) loop)
      (foreachAction (setup.lends limit) loop) := by
  intro s t hst
  rw [foreachAction, foreachAction, engine?_lends, State.vars_eq_of_veiled hst]
  dsimp only
  split
  · exact .of_veiled _ hst
  · split
    · exact .of_veiled _ hst
    · exact alike_runEntries hlent loop _ _ _ _ (veiled_loaded _ hst)

theorem alike_include (stepName : String) (inclusion : Include) :
    Action.Alike (includeAction (setup.lends limit) stepName inclusion)
      (includeAction (setup.lends limit) stepName inclusion) := by
  intro s t hst
  have hvars := State.vars_eq_of_veiled hst
  by_cases hfile : included inclusion s.vars = ""
  · rw [includeAction_of_nameless hfile, includeAction_of_nameless (hvars ▸ hfile)]
    exact .of_veiled _ hst
  · have hnoticed := veiled_noticed inclusion hst
    rw [includeAction_of_ne hfile, includeAction_of_ne (hvars ▸ hfile), ← hvars,
      State.files_eq_of_veiled hnoticed]
    split
    · exact .of_veiled _ hnoticed
    · next records _ =>
      have hnoticedVars := State.vars_eq_of_veiled hnoticed
      split
      · obtain ⟨result, u, v, hu, hv, huv⟩ := alike_runCommands hlent records _ _
          (State.veiled_vars hnoticed
            (inclusion.declared.insert parentKey (.obj (noticed inclusion s).vars)))
        rw [runIsolated_eq, runIsolated_eq, hu, ← hnoticedVars, hv]
        dsimp only
        have houter := State.veiled_vars huv (noticed inclusion s).vars
        rw [State.vars_eq_of_veiled huv]
        exact .of_veiled _ (congrArg (State.set (variablesKey stepName) _) houter)
      · rw [runMerged, runMerged, ← hnoticedVars]
        exact alike_runCommands hlent records _ _ (State.veiled_vars hnoticed _)

/-- A remote command and one that is handled alike. -/
theorem alike_remoteExec (stepName givenName : String) {exec other : RemoteExec}
    (h : exec.HandledAlike other) :
    Action.Alike (remoteExecAction (setup.lends limit) stepName givenName exec)
      (remoteExecAction (setup.lends limit) stepName givenName other) := by
  intro s t hst
  unfold remoteExecAction
  rw [engine?_lends]
  rcases State.connection_of_veiled hst with
    ⟨hnone, hnone'⟩ | ⟨first, first', hsome, hsome', hfirst⟩
  · rw [hnone, hnone']
    exact .of_veiled _ hst
  · rw [hsome, hsome', h.retry]
    refine RetryPolicy.alike_run other.retry ?_ (veilsFailures hlent) stepName s t hst
    intro number u v huv
    refine h.alike_attempt givenName ?_ u v huv
    -- the connection of the run, or the one it had when the step began
    rcases State.connection_of_veiled huv with
      ⟨hnow, hnow'⟩ | ⟨connection, connection', hnow, hnow', hveiled⟩
    · rw [hnow, hnow']
      exact hfirst
    · rw [hnow, hnow']
      exact hveiled

theorem alike_exec (stepName givenName : String) (exec : Exec) :
    Action.Alike (execAction (setup.lends limit) stepName givenName exec)
      (execAction (setup.lends limit) stepName givenName exec) :=
  RetryPolicy.alike_run exec.retry (fun _ => (exec.blind_attempt givenName).alike)
    (veilsFailures hlent) stepName

/-- **Actions of steps that are shown alike**, when the runs inside them are alike. -/
theorem alike_perform {step other : Step} (hstep : step.ShownAlike other) :
    Action.Alike (step.perform (setup.lends limit)) (other.perform (setup.lends limit)) := by
  have hname : step.name = other.name := hstep.eq_beside.1
  cases hstep with
  | redacted hbody hbody' hshown hgiven _ _ _ _ =>
    unfold Step.perform
    rw [hbody, hbody', hname, hgiven]
    exact alike_remoteExec hlent _ _ hshown.handledAlike
  | same =>
    unfold Step.perform
    cases step.body with
    | message => exact fun _ _ hst => .of_veiled _ hst
    | assign target value => exact (blind_assign target value).alike
    | sleep seconds => exact (blind_sleep seconds).alike
    | password p => exact (blind_password p).alike
    | writeFile file contents => exact (blind_writeFile _ _ file contents).alike
    | exec exec => exact alike_exec hlent _ _ exec
    | foreach loop => exact alike_foreach hlent loop
    | commands records => exact alike_runCommands hlent records
    | includeFile inclusion => exact alike_include hlent _ inclusion
    | remoteExec exec => exact alike_remoteExec hlent _ _ (.refl exec)
    | remoteFile file => exact file.alike_write _ _

/-! ### Steps and runs -/

theorem alike_runStep (suffix : String) {step other : Step} (hstep : step.ShownAlike other)
    {s t : State} (hst : s.veiled = t.veiled) :
    Alike (setup.runStep (setup.lends limit) suffix step s)
      (setup.runStep (setup.lends limit) suffix other t) := by
  obtain ⟨hname, hsummary, -, -, -⟩ := hstep.eq_beside
  have hwrap : ∀ e name vars, StepFailure.wrap e step name vars = .wrap e other name vars := by
    intro e name vars
    unfold StepFailure.wrap
    rw [hsummary]
  have hcheck := checkRequires_eq_of_veiled setup hstep hst
  have hvars := State.vars_eq_of_veiled hst
  rcases hother : setup.checkRequires other t with e | skips
  · rw [runStep_of_refusal (hcheck.trans hother), runStep_of_refusal hother, hwrap, hname, hvars]
    exact .of_veiled _ hst
  · cases skips with
    | true =>
      rw [runStep_of_skip (hcheck.trans hother), runStep_of_skip hother, hname]
      exact .of_veiled _ (congrArg (fun u : State =>
        (u.set other.name .null).set (skipKey (other.name ++ suffix)) (.bool true)) hst)
    | false =>
      rw [runStep_of_acts (acts_of_checkRequires (hcheck.trans hother)),
        runStep_of_acts (acts_of_checkRequires hother), hname]
      obtain ⟨result, u, v, hu, hv, huv⟩ :=
        alike_perform hlent hstep _ _ (veiled_starting suffix hstep hst)
      rw [hu, hv]
      rcases result with e | _
      · dsimp only
        rw [hwrap, State.vars_eq_of_veiled huv]
        exact .of_veiled _ huv
      · dsimp only
        obtain ⟨result, u', v', hu', hv', huv'⟩ := setup.alike_runHook hstep _ _ huv
        rw [hu', hv']
        rcases result with e | _
        · dsimp only
          rw [hwrap, State.vars_eq_of_veiled huv']
          exact .of_veiled _ huv'
        · exact .of_veiled _ huv'

theorem alike_runSteps (suffix : String) (observed : Bool) {steps others : List Step}
    (hsteps : List.Forall₂ Step.ShownAlike steps others) {s t : State}
    (hst : s.veiled = t.veiled) :
    Alike (setup.runSteps (setup.lends limit) suffix observed steps s)
      (setup.runSteps (setup.lends limit) suffix observed others t) := by
  induction hsteps generalizing s t with
  | nil => exact .of_veiled _ hst
  | cons hstep _ ih =>
    obtain ⟨result, u, v, hu, hv, huv⟩ :=
      alike_runStep hlent suffix hstep (veiled_observe observed hstep hst)
    rw [runSteps, runSteps, hu, hv]
    rcases result with e | _
    · exact .of_veiled _ huv
    · exact ih huv

end Inside

/-- Runs over steps that are shown alike, from states that differ in commands only. -/
theorem alike_run (setup : Setup) (limit : Nat) (observed : Bool) {steps others : List Step}
    (hsteps : List.Forall₂ Step.ShownAlike steps others) (suffix : String) {s t : State}
    (hst : s.veiled = t.veiled) :
    Alike (setup.run limit observed steps suffix s) (setup.run limit observed others suffix t) := by
  induction limit generalizing observed steps others suffix s t with
  | zero =>
    rw [run_eq_runSteps, run_eq_runSteps]
    exact alike_runSteps (fun _ _ _ _ h => .of_veiled _ h) suffix observed hsteps hst
  | succ limit ih =>
    have hlent : ∀ steps suffix, Action.Alike (setup.lentRun (limit + 1) steps suffix)
        (setup.lentRun (limit + 1) steps suffix) := by
      intro steps suffix u v huv
      obtain ⟨result, u', v', hu, hv, huv'⟩ :=
        ih false (List.forall₂_same.2 fun step _ => .same step) suffix huv
      show Alike (asAction (setup.run limit false steps suffix u))
        (asAction (setup.run limit false steps suffix v))
      rw [hu, hv]
      exact .of_veiled _ huv'
    rw [run_eq_runSteps, run_eq_runSteps]
    exact alike_runSteps hlent suffix observed hsteps hst

/-- **A redacted command never leaks.**  When the steps of two runs are the same but for the words
of commands that are shown as something else, nothing tells the runs apart: they have the same
result, with the same error if they fail, the same variables, the same output on both streams, and
the same events, which are the log lines, hooks, pauses and starts of steps.  All else in which the
states differ are the lines that sessions were given to run. -/
theorem redacted_runs_alike (setup : Setup) (limit : Nat) (observed : Bool) (suffix : String)
    {steps others : List Step} (hsteps : List.Forall₂ Step.ShownAlike steps others) (s : State) :
    let ran := setup.run limit observed steps suffix s
    let other := setup.run limit observed others suffix s
    ran.1 = other.1 ∧ ran.2.vars = other.2.vars ∧
      ran.2.world.stdout = other.2.world.stdout ∧ ran.2.world.stderr = other.2.world.stderr ∧
      ran.2.world.events = other.2.world.events ∧ ran.2.veiled = other.2.veiled := by
  obtain ⟨result, t, u, ht, hu, htu⟩ := setup.alike_run limit observed hsteps suffix rfl
  rw [ht, hu]
  exact ⟨rfl, State.vars_eq_of_veiled htu, congrArg (·.world.stdout) htu,
    congrArg (·.world.stderr) htu, congrArg (·.world.events) htu, htu⟩

/-- A command with a secret, which is tried twice. -/
def unlocking (secret : String) : Step :=
  { givenName := "unlock"
    body := .remoteExec
      { words := ["unlock", secret], shownAs := "unlock ***", target := "reply"
        retry := { attempts := 2 } } }

/-- A run on a host on which the first command writes an error and fails. -/
def onGuarded : State :=
  { vars := []
    world :=
      { shown := some .info
        connection := some
          { host := { scripts :=
            [{ steps := [.errorOutput [110, 111, 10]], failure := some (.exit 1) },
              { steps := [.output [111, 107, 10]] }] } } } }

/-- Two secrets cannot be told apart, though the host gets different lines. -/
theorem redacted_runs_alike_of_unlocking :
    (({} : Setup).run 0 true [unlocking "a b"] "" onGuarded).2.veiled
        = (({} : Setup).run 0 true [unlocking "it's"] "" onGuarded).2.veiled ∧
      (({} : Setup).run 0 true [unlocking "a b"] "" onGuarded).2.world.connection
        ≠ (({} : Setup).run 0 true [unlocking "it's"] "" onGuarded).2.world.connection := by
  have hsteps : List.Forall₂ Step.ShownAlike [unlocking "a b"] [unlocking "it's"] :=
    .cons (.redacted rfl rfl ⟨by decide, rfl, by decide, by decide, rfl, rfl, rfl⟩ rfl rfl rfl rfl
      rfl) .nil
  obtain ⟨-, -, -, -, -, hveiled⟩ := redacted_runs_alike {} 0 true "" hsteps onGuarded
  exact ⟨hveiled, by decide +kernel⟩

end Setup

end Runbook
