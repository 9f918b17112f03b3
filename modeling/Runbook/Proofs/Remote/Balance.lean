import Mathlib.Data.List.Basic
import Runbook.Proofs.Copy.Outcome
import Runbook.Run.Remote
/-!
# Sessions that are asked for and closed

A step on another host asks its connection for sessions.  Some requests are refused, and everything
behind a request that is granted can fail: the terminal, each variable of the environment, the
command, the pipes and the parts of a copy.  This file says what one attempt of a remote command and
one copy leave of a connection, however they end.

* `Connection.Balance` — a connection after `asked` more requests: every session that was granted is
  closed, and the connection itself is closed or left as it was;
* `State.Uses` — the same for the connection of a run, if it has one;
* `RemoteExec.uses_attempt` — an attempt of a remote command;
* `Copy.Client.Copies` — the copies that can come of a client, in every order of its tasks, its
  deadline and the turns of its caller;
* `RemoteFile.uses_write` — a file that is written with any such copy.
-/

namespace Runbook

/-! ### Balances -/

namespace Remote.Connection

/-- The connection `d` is what `c` has become by `asked` requests for sessions: as many sessions
were kept as requests were granted, all of them are closed, and the connection was closed exactly if
`closes` holds, unless it was closed before. -/
structure Balance (c : Connection) (asked : Nat) (closes : Prop) (d : Connection) : Prop where
  host : d.host = c.host
  requests : d.requests = c.requests + asked
  sessions : ∃ opened, d.sessions = c.sessions ++ opened ∧
    opened.length
      = (List.range' c.requests asked).countP (fun i => (c.host.refusalAt i).isNone) ∧
    ∀ session ∈ opened, .close ∈ session.calls
  closed : d.closed = true ↔ c.closed = true ∨ closes

namespace Balance

/-- Nothing is asked for, and nothing is closed. -/
theorem idle {closes : Prop} (hopen : ¬closes) (c : Connection) : Balance c 0 closes c :=
  ⟨rfl, rfl, ⟨[], (List.append_nil _).symm, rfl, List.forall_mem_nil _⟩, (or_iff_left hopen).symm⟩

theorem trans {asked more : Nat} {closes closes' : Prop} {c d e : Connection}
    (h : Balance c asked closes d) (h' : Balance d more closes' e) :
    Balance c (asked + more) (closes ∨ closes') e := by
  obtain ⟨opened, hsessions, hlength, hopened⟩ := h.sessions
  obtain ⟨opened', hsessions', hlength', hopened'⟩ := h'.sessions
  rw [h.host, h.requests] at hlength'
  constructor
  · rw [h'.host, h.host]
  · rw [h'.requests, h.requests, Nat.add_assoc]
  · refine ⟨opened ++ opened', ?_, ?_, ?_⟩
    · rw [hsessions', hsessions, List.append_assoc]
    · rw [List.length_append, hlength, hlength', ← List.countP_append, List.range'_append_1]
    · intro session hsession
      rcases List.mem_append.1 hsession with hmem | hmem
      · exact hopened session hmem
      · exact hopened' session hmem
  · rw [h'.closed, h.closed, or_assoc]

end Balance

theorem openSession_error {c d : Connection} {e : SshError} (h : c.openSession = (.error e, d)) :
    c.host.refusalAt c.requests = some e ∧ d = { c with requests := c.requests + 1 } := by
  unfold openSession at h
  split at h <;> cases h
  exact ⟨‹_›, rfl⟩

theorem openSession_ok {c d : Connection} {session : Session}
    (h : c.openSession = (.ok session, d)) :
    c.host.refusalAt c.requests = none ∧ d = { c with requests := c.requests + 1 } := by
  unfold openSession at h
  split at h <;> cases h
  exact ⟨‹_›, rfl⟩

/-- A request that is refused. -/
theorem balance_refused {closes : Prop} {c d : Connection} {e : SshError}
    (h : c.openSession = (.error e, d)) (hopen : ¬closes) : Balance c 1 closes d := by
  obtain ⟨hrefused, rfl⟩ := openSession_error h
  have hnone : (List.range' c.requests 1).countP (fun i => (c.host.refusalAt i).isNone) = 0 := by
    simp [hrefused]
  exact ⟨rfl, rfl, ⟨[], (List.append_nil _).symm, hnone.symm, List.forall_mem_nil _⟩,
    (or_iff_left hopen).symm⟩

/-- A request that is granted, when its session is closed and kept in the end. -/
theorem balance_kept {closes : Prop} {c d e : Connection} {opened session : Session}
    (h : c.openSession = (.ok opened, d)) (hsession : .close ∈ session.calls)
    (hclosed : e = d ∧ ¬closes ∨ e = d.close.2 ∧ closes) :
    Balance c 1 closes (e.keep session) := by
  obtain ⟨hgranted, rfl⟩ := openSession_ok h
  have hopened : [session].length
      = (List.range' c.requests 1).countP (fun i => (c.host.refusalAt i).isNone) := by
    simp [hgranted]
  have hmem : ∀ kept ∈ [session], .close ∈ kept.calls := by
    intro kept hkept
    rwa [List.mem_singleton.1 hkept]
  rcases hclosed with ⟨rfl, hopen⟩ | ⟨rfl, hdone⟩
  · exact ⟨rfl, rfl, ⟨[session], rfl, hopened, hmem⟩, by simp [keep, hopen]⟩
  · exact ⟨rfl, rfl, ⟨[session], rfl, hopened, hmem⟩, by simp [keep, close, hdone]⟩

end Remote.Connection

/-- A session has seen the request to close it. -/
theorem Remote.Session.close_mem (session : Session) : .close ∈ session.close.2.calls :=
  List.mem_append_right _ List.mem_cons_self

/-- From the state `s` to the state `t`, the connection of a run is asked for `asked` sessions, all
of which are closed if they were granted; a run without a connection has none in the end. -/
def State.Uses (asked : Nat) (closes : Prop) (s t : State) : Prop :=
  Option.Rel (fun c d => c.Balance asked closes d) s.world.connection t.world.connection

namespace State.Uses

/-- What leaves the connection alone. -/
theorem of_eq {closes : Prop} {s t : State} (hopen : ¬closes)
    (h : t.world.connection = s.world.connection) : Uses 0 closes s t := by
  rw [Uses, h]
  cases s.world.connection with
  | none => exact .none
  | some c => exact .some (.idle hopen c)

theorem trans {asked more : Nat} {closes closes' : Prop} {s t u : State}
    (h : Uses asked closes s t) (h' : Uses more closes' t u) :
    Uses (asked + more) (closes ∨ closes') s u := by
  unfold Uses at *
  generalize s.world.connection = c at h ⊢
  generalize t.world.connection = d at h h'
  generalize u.world.connection = e at h' ⊢
  cases h with
  | none => cases h'; exact .none
  | some h => cases h' with | some h' => exact .some (h.trans h')

theorem isSome_eq {asked : Nat} {closes : Prop} {s t : State} (h : Uses asked closes s t) :
    t.world.connection.isSome = s.world.connection.isSome := by
  unfold Uses at h
  generalize s.world.connection = c at h ⊢
  generalize t.world.connection = d at h ⊢
  cases h <;> rfl

/-- A connection that is there stays there, with its balance. -/
theorem exists_balance {asked : Nat} {closes : Prop} {s t : State} (h : Uses asked closes s t)
    {c : Remote.Connection} (hc : s.world.connection = some c) :
    ∃ d, t.world.connection = some d ∧ c.Balance asked closes d := by
  unfold Uses at h
  rw [hc] at h
  generalize t.world.connection = found at h ⊢
  cases h with
  | some h => exact ⟨_, rfl, h⟩

end State.Uses

/-! ### Remote commands -/

/-- An attempt of a remote command asks for one session at most, and for none when its command is
empty; it never closes the connection. -/
theorem RemoteExec.uses_attempt (exec : RemoteExec) (givenName : String)
    {connection : Remote.Connection} {s : State} (h : s.world.connection = some connection) :
    ∃ asked, asked ≤ 1 ∧ (exec.command s.vars = "" → asked = 0) ∧
      s.Uses asked False (exec.attempt givenName connection s).2 := by
  rw [RemoteExec.attempt]
  dsimp only
  split
  · exact ⟨0, Nat.zero_le 1, fun _ => rfl, .of_eq id rfl⟩
  · next hcommand =>
    refine ⟨1, Nat.le_refl 1, fun hempty => absurd hempty hcommand, ?_⟩
    unfold State.Uses
    rw [h]
    split
    · next hrefused => exact .some (Remote.Connection.balance_refused hrefused id)
    · next hgranted =>
      exact .some (Remote.Connection.balance_kept hgranted (Remote.Session.close_mem _)
        (.inl ⟨rfl, id⟩))

/-! ### Copies -/

namespace Copy.Client

/-- The copies that can come of a client: the contents cannot be read, or a pipe cannot be opened,
or both tasks are started and the caller returns after moments in any order, whatever the sender can
report and however the receiver ends. -/
inductive Copies (client : Client) (source : Source) (path : String) (session : Remote.Session)
    (connection : Remote.Connection) : Copied → Prop
  | unread {e} :
      source.contents = .error e →
      Copies client source path session connection
        { result := .error (.io "read all" e), session, connection }
  | noInput {e} :
      session.script.inputError = some e →
      Copies client source path session connection
        { result := .error (.transport "stdin pipe" e), session, connection }
  | noOutput {e} :
      session.script.outputError = some e →
      Copies client source path session connection
        { result := .error (.transport "stdout pipe" e), session, connection }
  | ended {d o ms driver runner w} (x : Exchange) :
      SenderReport d →
      Schedule (.busy d) (.busy (Exchange.receiverReport o)) ms driver runner →
      Waiting.run {} ms = some w →
      w.result ≠ none →
      Copies client source path session connection (client.finish path x w session connection)

/-- A copy closes the connection exactly when it fails with the timeout. -/
theorem Copies.closes {client : Client} {source : Source} {path : String}
    {session : Remote.Session} {connection : Remote.Connection} {copied : Copied}
    (h : client.Copies source path session connection copied) :
    copied.connection = connection ∧ copied.result ≠ .error .timeout ∨
      copied.connection = connection.close.2 ∧ copied.result = .error .timeout := by
  cases h with
  | unread => exact .inl ⟨rfl, nofun⟩
  | noInput => exact .inl ⟨rfl, nofun⟩
  | noOutput => exact .inl ⟨rfl, nofun⟩
  | @ended d o ms driver runner w x hd hschedule hrun hresult =>
    have hboth : [d, Exchange.receiverReport o].length = 2 := rfl
    obtain ⟨v, hv, haccounts⟩ :=
      hschedule.accounts hboth (Accounts.start d (Exchange.receiverReport o))
    obtain rfl : w = v := Option.some.inj (hrun.symm.trans hv)
    have hsettles := settles_of_accounts hboth (reportable_both hd o) haccounts hresult client
      path x session connection
    by_cases hgave : GaveUp ms
    · exact .inr ⟨(hsettles.closes hgave).2, hsettles.timesOut.2 hgave⟩
    · exact .inl ⟨(hsettles.keeps hgave).2, fun htimeout => hgave (hsettles.timesOut.1 htimeout)⟩

/-- The copy that is played is one of these. -/
theorem copies_copyFile (client : Client) (source : Source) (path permissions : String)
    (session : Remote.Session) (connection : Remote.Connection) :
    client.Copies source path session connection
      (client.copyFile source path permissions session connection) := by
  rw [copyFile]
  split
  · next e hcontents => exact .unread hcontents
  · rw [copy, copyIn]
    split
    · next e hinput => exact .noInput hinput
    · next e hinput houtput => exact .noOutput houtput
    · obtain ⟨d, o, driver, runner, w, hd, -, hschedule, hrun, hresult⟩ :=
        (Exchange.consistent_run _ session.script client.timeout).schedule
      rw [transferIn, hrun]
      exact .ended _ hd hschedule hrun hresult

end Copy.Client

/-! ### Files -/

namespace RemoteFile

/-- A copier all of whose copies can come of the client of a file. -/
def Allows (file : RemoteFile) (copier : Copier) : Prop :=
  ∀ path bytes session connection,
    file.client.Copies { bytes } path session connection (copier path bytes session connection)

theorem allows_copier (file : RemoteFile) : file.Allows file.copier :=
  fun path _ session connection =>
    file.client.copies_copyFile _ path file.permissions session connection

/-- A file that cannot be written, because a field is missing or there are no contents. -/
def Lacks (file : RemoteFile) (ctx : Context) (s : State) : Prop :=
  file.file = "" ∨ file.permissions = "" ∨ ∃ e, file.bytes ctx s = .error e

/-- The error of a copy is the error of its step. -/
theorem mapError_eq_timeout {result : Copy.Report} :
    result.mapError StepError.scp = .error (.scp .timeout) ↔ result = .error .timeout := by
  rcases result with e | _
  · simp [Except.mapError]
  · simp [Except.mapError]

/-- A request for a session and the copy in it: the connection is closed exactly when the copy times
out. -/
theorem uses_send {file : RemoteFile} {copier : Copier} (hcopier : file.Allows copier)
    (path : String) (bytes : List UInt8) {connection : Remote.Connection} {s : State}
    (h : s.world.connection = some connection) :
    s.Uses 1 ((file.send copier path bytes connection s).1 = .error (.scp .timeout))
      (file.send copier path bytes connection s).2 := by
  rw [send]
  unfold State.Uses
  rw [h]
  split
  · next hrefused => exact .some (Remote.Connection.balance_refused hrefused nofun)
  · next session granted hgranted =>
    refine .some (Remote.Connection.balance_kept hgranted (Remote.Session.close_mem _) ?_)
    dsimp only
    rw [mapError_eq_timeout]
    exact (hcopier path bytes session granted).closes

/-- Contents that cannot be had are no timeout. -/
theorem ne_timeout_of_bytes {file : RemoteFile} {ctx : Context} {s : State} {e : StepError}
    (h : file.bytes ctx s = .error e) : e ≠ .scp .timeout := by
  unfold bytes at h
  split at h
  · dsimp only at h
    split at h <;> cases h <;> exact nofun
  · split at h
    · split at h <;> cases h
      exact nofun
    · cases h

/-- **A file on another host.**  However it is copied, one session is asked for at most, and none
when the file cannot be written; the connection is closed exactly when the copy times out. -/
theorem uses_write {file : RemoteFile} {copier : Copier} (hcopier : file.Allows copier)
    (ctx : Context) (stepName : String) (s : State) :
    ∃ asked, asked ≤ 1 ∧ (file.Lacks ctx s → asked = 0) ∧
      s.Uses asked ((file.write copier ctx stepName s).1 = .error (.scp .timeout))
        (file.write copier ctx stepName s).2 := by
  rw [write]
  split
  · exact ⟨0, Nat.zero_le 1, fun _ => rfl, .of_eq nofun rfl⟩
  · next hfile =>
    split
    · exact ⟨0, Nat.zero_le 1, fun _ => rfl, .of_eq nofun rfl⟩
    · next hpermissions =>
      split
      · exact ⟨0, Nat.zero_le 1, fun _ => rfl, .of_eq nofun rfl⟩
      · next connection hconnection =>
        dsimp only
        split
        · next e hbytes =>
          refine ⟨0, Nat.zero_le 1, fun _ => rfl, .of_eq ?_ rfl⟩
          rw [Except.error.injEq]
          exact ne_timeout_of_bytes hbytes
        · next bytes hbytes =>
          refine ⟨1, Nat.le_refl 1, ?_, uses_send hcopier _ bytes hconnection⟩
          rintro (hlacks | hlacks | ⟨e, hlacks⟩)
          · exact absurd hlacks hfile
          · exact absurd hlacks hpermissions
          · rw [hbytes] at hlacks
            cases hlacks

end RemoteFile

end Runbook
