import Runbook.Proofs.Remote.Balance
import Runbook.Proofs.Shell.Splitting
/-!
# Command lines that are sent away

What runs on another host is one line of text, which the shell there cuts into words.  Three texts
of a run go into such lines: the words of a remote command, the path of a file that is copied, and
what a template quotes for a line of its own.

* `RemoteExec.run_mem_attempt` — an attempt of a remote command runs the line of its words and no
  other one;
* `Copy.Client.Copies.run_mem` — a copy runs its receiver on its path and nothing else, in every
  order of its tasks;
* `command_lines_read_back` — the words that the shell reads are the ones that were meant.
-/

namespace Runbook

/-! ### The lines of remote commands -/

/-- A session that was granted has seen no call. -/
theorem Remote.Connection.calls_of_openSession {c d : Connection} {session : Session}
    (h : c.openSession = (.ok session, d)) : session.calls = [] := by
  unfold openSession at h
  split at h <;> cases h
  rfl

/-- A call that is noted is the only one that is added. -/
theorem run_mem_note {session : Remote.Session} {call : Remote.Call} {line : String}
    (h : .run line ∈ (session.note call).calls) : .run line ∈ session.calls ∨ .run line = call :=
  (List.mem_append.1 h).imp_right List.mem_singleton.1

/-- Setting variables of the environment runs nothing. -/
theorem run_mem_setEnvironment {vars : Namespace} {entries : List (String × String)}
    {session t : Remote.Session} {result : Except SshError Unit} {line : String}
    (hset : setEnvironment vars entries session = (result, t)) (h : .run line ∈ t.calls) :
    .run line ∈ session.calls := by
  induction entries generalizing session with
  | nil =>
    cases hset
    exact h
  | cons entry entries ih =>
    obtain ⟨name, value⟩ := entry
    -- a variable that is set is a call, but none that runs anything
    have hfirst : ∀ u, .run line ∈ (u : Remote.Session).calls →
        u = session.note (.environment name (interpolate vars value)) →
        .run line ∈ session.calls := by
      rintro u hmem rfl
      exact (run_mem_note hmem).resolve_right fun hcall => by cases hcall
    rw [setEnvironment, Remote.Session.setVariable] at hset
    split at hset
    · next u hvariable => exact hfirst u (ih hset) (Prod.mk.inj hvariable).2.symm
    · next e u hvariable =>
      cases hset
      exact hfirst t h (Prod.mk.inj hvariable).2.symm

namespace RemoteExec

/-- A command that runs in a session is the one that was given. -/
theorem run_mem_runInSession {exec : RemoteExec} {command : String} {session t : Remote.Session}
    {s u : State} {result : Except StepError Unit} {line : String}
    (hran : runInSession exec command session s = (result, t, u)) (h : .run line ∈ t.calls) :
    .run line ∈ session.calls ∨ line = command := by
  have hterminal : ∀ opened : Remote.Session, .run line ∈ opened.calls →
      opened = session.note (.terminal "xterm" 80 40) → .run line ∈ session.calls := by
    rintro opened hmem rfl
    exact (run_mem_note hmem).resolve_right fun hcall => by cases hcall
  rw [runInSession, requestTerminal, Remote.Session.requestTerminal] at hran
  split at hran
  · next e opened hrequest =>
    cases hran
    exact .inl (hterminal t h (Prod.mk.inj hrequest).2.symm)
  · next opened hrequest =>
    have hopened := (Prod.mk.inj hrequest).2.symm
    split at hran
    · next e set henvironment =>
      cases hran
      exact .inl (hterminal opened (run_mem_setEnvironment henvironment h) hopened)
    · next set henvironment =>
      cases hran
      rcases run_mem_note h with hmem | hcall
      · exact .inl (hterminal opened (run_mem_setEnvironment henvironment hmem) hopened)
      · cases hcall
        exact .inr rfl

/-- **The line of an attempt.**  A session that an attempt of a remote command opens runs the line
of its words, with their templates filled in, and no other line. -/
theorem run_mem_attempt (exec : RemoteExec) (givenName : String) {connection : Remote.Connection}
    {s : State} (h : s.world.connection = some connection) :
    ∃ d opened, (exec.attempt givenName connection s).2.world.connection = some d ∧
      d.sessions = connection.sessions ++ opened ∧
      ∀ session ∈ opened, ∀ line, .run line ∈ session.calls → line = exec.command s.vars := by
  rw [RemoteExec.attempt]
  dsimp only
  split
  · exact ⟨connection, [], h, (List.append_nil _).symm, List.forall_mem_nil _⟩
  · split
    · next e refused hrefused =>
      obtain ⟨-, rfl⟩ := Remote.Connection.openSession_error hrefused
      exact ⟨_, [], rfl, (List.append_nil _).symm, List.forall_mem_nil _⟩
    · next session granted hgranted =>
      obtain ⟨-, rfl⟩ := Remote.Connection.openSession_ok hgranted
      generalize hran : runInSession exec (exec.command s.vars) session _ = ran
      obtain ⟨result, t, u⟩ := ran
      refine ⟨_, [t.close.2], rfl, rfl, ?_⟩
      intro kept hkept line hline
      rw [List.mem_singleton.1 hkept] at hline
      have hmem : .run line ∈ t.calls :=
        (run_mem_note hline).resolve_right fun hcall => by cases hcall
      refine (run_mem_runInSession hran hmem).resolve_left ?_
      rw [Remote.Connection.calls_of_openSession hgranted]
      exact List.not_mem_nil

end RemoteExec

/-! ### The lines of copies -/

namespace Copy.Client

theorem command_eq (client : Client) (path : String) :
    client.command path = client.program ++ " -qt" ++ " " ++ Shell.escapeString path := by
  have hblank : (" -qt " : String) = " -qt" ++ " " := by decide
  rw [command, hblank, ← String.append_assoc]

/-- **The line of a copy.**  Whatever the order of its tasks, a copy runs its receiver on its path
and nothing else. -/
theorem Copies.run_mem {client : Client} {source : Source} {path : String}
    {session : Remote.Session} {connection : Remote.Connection} {copied : Copied}
    (h : client.Copies source path session connection copied) {line : String}
    (hline : .run line ∈ copied.session.calls) :
    .run line ∈ session.calls ∨ line = client.command path := by
  cases h with
  | unread => exact .inl hline
  | noInput => exact .inl hline
  | noOutput => exact .inl hline
  | ended x =>
    have hrun : .run line ∈ (session.note (.run (client.command path))).calls →
        .run line ∈ session.calls ∨ line = client.command path := by
      intro hmem
      refine (run_mem_note hmem).imp_right fun hcall => ?_
      cases hcall
      rfl
    rw [finish] at hline
    dsimp only at hline
    split at hline
    · exact hrun ((run_mem_note hline).resolve_right fun hcall => by cases hcall)
    · exact hrun hline

end Copy.Client

/-- The receiver that a step starts is the one that is started anywhere. -/
theorem RemoteFile.split_receiver (file : RemoteFile) :
    Shell.split (file.client.program ++ " -qt") = .ok ["scp", "-qt"] := by
  have hprogram : file.client.program = "scp" := by
    rw [RemoteFile.client]
    split <;> rfl
  rw [hprogram]
  decide +kernel

/-! ### All three -/

/-- **Lines are read back as the words that were meant.**  The words of any command line are those
that it was made of, and no character of theirs is read as anything else.  So it is with the lines
that an attempt of a remote command runs, whose words are the ones that were given with their
templates filled in; with the lines that a copy runs, in which the path is one word behind those of
the receiver; and with a text that a template quotes. -/
theorem command_lines_read_back :
    (∀ words, Shell.split (Shell.commandLine words) = .ok words) ∧
    (∀ (exec : RemoteExec) (givenName : String) (connection : Remote.Connection) (s : State),
      s.world.connection = some connection →
      ∃ d opened, (exec.attempt givenName connection s).2.world.connection = some d ∧
        d.sessions = connection.sessions ++ opened ∧
        ∀ session ∈ opened, ∀ line, .run line ∈ session.calls →
          Shell.split line = .ok (exec.words.map (interpolate s.vars))) ∧
    (∀ (client : Copy.Client) (source : Copy.Source) (path : String) (session : Remote.Session)
        (connection : Remote.Connection) (copied : Copy.Copied) (receiver : List String),
      Shell.split (client.program ++ " -qt") = .ok receiver →
      client.Copies source path session connection copied →
      ∀ line, .run line ∈ copied.session.calls →
        .run line ∈ session.calls ∨ Shell.split line = .ok (receiver ++ [path])) ∧
    (∀ file : RemoteFile, Shell.split (file.client.program ++ " -qt") = .ok ["scp", "-qt"]) ∧
    (∀ (functions : Template.ValueFunctions) (args : Template.Named) (text : String),
      functions.lookup "shell_escape" = none →
      ∃ filter quoted, Template.filter? functions "shell_escape" = some filter ∧
        filter (.str text) args = some (.str quoted) ∧ Shell.split quoted = .ok [text]) := by
  refine ⟨Shell.split_commandLine, ?_, ?_, RemoteFile.split_receiver, ?_⟩
  · intro exec givenName connection s hconnection
    obtain ⟨d, opened, hd, hsessions, hlines⟩ := exec.run_mem_attempt givenName hconnection
    refine ⟨d, opened, hd, hsessions, fun session hsession line hline => ?_⟩
    rw [hlines session hsession line hline]
    exact Shell.split_commandLine _
  · intro client source path session connection copied receiver hreceiver hcopies line hline
    refine (hcopies.run_mem hline).imp_right fun hcommand => ?_
    rw [hcommand, Copy.Client.command_eq]
    exact Shell.split_append_escapeString hreceiver path
  · intro functions args text hown
    refine ⟨Template.shellEscape, Shell.escapeString text, ?_, rfl,
      Shell.split_escapeString text⟩
    rw [Template.filter?, hown]
    rfl

/-- A remote command whose words are hard to quote. -/
def trickyCommand : RemoteExec :=
  { words := ["printf", "it's\n", "", "$HOME;"] }

/-- A path that would be two words and another command. -/
def trickyPath : String :=
  "/tmp/a b;reboot"

/-- A run whose connection has had no session yet. -/
def newlyConnected : State :=
  { vars := [], world := { connection := some {} } }

/-- The line of that command, the line of a copy to that path, and the path in a template, are read
back. -/
theorem command_lines_read_back_of_tricky :
    (∃ d line,
      (trickyCommand.attempt "" {} newlyConnected).2.world.connection = some d ∧
      d.sessions.map (·.calls) = [[.terminal "xterm" 80 40, .run line, .close]] ∧
      Shell.split line = .ok ["printf", "it's\n", "", "$HOME;"]) ∧
    (.run "scp -qt '/tmp/a b;reboot'" ∈ (({} : Copy.Client).copyFile ⟨[], none⟩ trickyPath "0644"
        { script := {} } {}).session.calls ∧
      Shell.split "scp -qt '/tmp/a b;reboot'" = .ok ["scp", "-qt", trickyPath]) ∧
    (∃ filter quoted, Template.filter? [] "shell_escape" = some filter ∧
      filter (.str trickyPath) [] = some (.str quoted) ∧
      Shell.split quoted = .ok [trickyPath]) := by
  obtain ⟨-, hattempt, hcopies, hreceiver, hfilter⟩ := command_lines_read_back
  refine ⟨?_, ?_, hfilter [] [] trickyPath rfl⟩
  · obtain ⟨d, opened, hd, hsessions, hlines⟩ := hattempt trickyCommand "" {} newlyConnected rfl
    have hplayed : (trickyCommand.attempt "" {} newlyConnected).2.world.connection = some
        { requests := 1
          sessions := [{
            script := {}
            calls := [.terminal "xterm" 80 40, .run "printf 'it'\"'\"'s\n' '' '$HOME;'",
              .close] }] } := by
      decide +kernel
    obtain rfl := Option.some.inj (hd.symm.trans hplayed)
    change [_] = opened at hsessions
    subst hsessions
    refine ⟨_, _, hd, rfl, ?_⟩
    rw [hlines _ (List.mem_singleton_self _) _ (List.mem_cons_of_mem _ List.mem_cons_self)]
    decide +kernel
  · have hrun : .run "scp -qt '/tmp/a b;reboot'" ∈ (({} : Copy.Client).copyFile ⟨[], none⟩
        trickyPath "0644" { script := {} } {}).session.calls := by
      decide +kernel
    exact ⟨hrun, (hcopies {} _ trickyPath _ _ _ _ (hreceiver {})
      (Copy.Client.copies_copyFile _ _ _ _ _ _) _ hrun).resolve_left List.not_mem_nil⟩

end Runbook
