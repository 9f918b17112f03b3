import Runbook.Proofs.Copy.Rest
import Runbook.Proofs.Copy.Schedule
/-!
# What a copy returns and closes

* `SenderReport` — what the sender of a copy can report;
* `Client.Settles` — what a caller that has concluded returns, and what it has closed;
* `Client.finish_in_every_order` — a caller settles in every order of the two tasks, the deadline
  and its own turns; no report is kept waiting, and a caller behind its deadline returns;
* `Exchange.Consistent`, `Exchange.Tells` — an exchange shows its caller the reports of its own two
  tasks, and the deadline only when one of them is missing;
* `Client.transfer_settles` — the order in which a copy is played is one of these orders;
* `Client.copy_in_every_order` — all of this for copies over a session.

Both tasks are taken to have been started.
-/

namespace Runbook.Copy

/-! ### Reports of the tasks -/

/-- What a sender can report: a success, an error of reading or writing, an answer that refuses, or
contents that are shorter than announced. -/
inductive SenderReport : Report → Prop
  | ok : SenderReport (.ok ())
  | io (stage : String) (e : IoError) : SenderReport (.error (.io stage e))
  | remote (stage message : String) : SenderReport (.error (.remote stage message))
  | shortRead (expected copied : Nat) : SenderReport (.error (.shortRead expected copied))

theorem senderReport_of_acknowledge {stage : String} {answers : Answers} {e : ScpError}
    (h : acknowledge stage answers = some (.error e)) : SenderReport (.error e) := by
  unfold acknowledge at h
  split at h
  · cases h
  · split at h
    · cases h
      exact .io _ _
    · split at h <;> cases h
      exact .remote _ _

namespace Sending

theorem senderReport_of_finish {sending : Sending} {room : Option Nat} {answers : Answers}
    {report : Report} (h : (sending.finish room answers).outcome = some report) :
    SenderReport report := by
  unfold finish at h
  dsimp only at h
  split at h
  · cases h
    exact .io _ _
  · rcases hanswer : acknowledge "acknowledge contents" answers with _ | e | _
    all_goals rw [hanswer] at h; cases h
    · exact senderReport_of_acknowledge hanswer
    · exact .ok

theorem senderReport_of_deliver {sending : Sending} {room : Option Nat} {answers : Answers}
    {report : Report} (h : (sending.deliver room answers).outcome = some report) :
    SenderReport report := by
  unfold deliver at h
  dsimp only at h
  split at h
  · cases h
    exact .io _ _
  · split at h
    · split at h <;> cases h
      · exact .io _ _
      · exact .shortRead _ _
    · exact senderReport_of_finish h

/-- A sender reports nothing else, whatever it is answered. -/
theorem senderReport_of_progress {sending : Sending} {room : Option Nat} {answers : Answers}
    {report : Report} (h : (sending.progress room answers).outcome = some report) :
    SenderReport report := by
  unfold progress at h
  split at h
  · cases h
    exact .io _ _
  · split at h
    · cases h
    · next e hanswer =>
      cases h
      exact senderReport_of_acknowledge hanswer
    · exact senderReport_of_deliver h

end Sending

/-- A report of a task: neither the deadline nor a lost task is reported. -/
def Reportable (report : Report) : Prop :=
  report ≠ .error .timeout ∧ report ≠ .error .taskLost

theorem reportable_ok : Reportable (.ok ()) := ⟨nofun, nofun⟩

theorem SenderReport.reportable {report : Report} (h : SenderReport report) :
    Reportable report := by
  cases h <;> exact ⟨nofun, nofun⟩

theorem reportable_receiver (outcome : Except SshError Unit) :
    Reportable (Exchange.receiverReport outcome) := by
  cases outcome <;> exact ⟨nofun, nofun⟩

theorem reportable_both {d : Report} (hd : SenderReport d) (o : Except SshError Unit) :
    ∀ r ∈ [d, Exchange.receiverReport o], Reportable r := by
  intro r hr
  rcases List.mem_cons.1 hr with rfl | hr
  · exact hd.reportable
  · rw [List.mem_singleton.1 hr]
    exact reportable_receiver o

/-! ### Callers that have concluded -/

namespace Client

/-- What a copy has come to, after the moments `ms` and with the caller in the state `w`: it
succeeds when both reports were received and both are successes; with both received and an error
among them it fails with the earliest error; and when the caller gave up, it fails with the timeout
and has closed the session and the connection, which it leaves open otherwise. -/
structure Settles (client : Client) (path : String) (session : Remote.Session)
    (connection : Remote.Connection) (ms : List Moment) (w : Waiting) (copied : Copied) :
    Prop where
  succeeds : copied.result = .ok () ↔ w.taken = 2 ∧ ∀ r ∈ reports ms, r = .ok ()
  fails : w.taken = 2 → copied.result = earliest (reports ms)
  timesOut : copied.result = .error .timeout ↔ GaveUp ms
  decided : w.taken = 2 ↔ ¬GaveUp ms
  notLost : copied.result ≠ .error .taskLost
  closes : GaveUp ms →
    copied.session.calls = session.calls ++ [.run (client.command path), .close] ∧
      copied.connection = connection.close.2
  keeps : ¬GaveUp ms →
    copied.session.calls = session.calls ++ [.run (client.command path)] ∧
      copied.connection = connection

/-- A caller that took both reports returns what they come to, and closes nothing. -/
theorem finish_of_taken {w : Waiting} {result : Report} (hresult : w.result = some result)
    (hreportable : Reportable result) (client : Client) (path : String) (x : Exchange)
    (session : Remote.Session) (connection : Remote.Connection) :
    (client.finish path x w session connection).result = result ∧
      (client.finish path x w session connection).session.calls
        = session.calls ++ [.run (client.command path)] ∧
      (client.finish path x w session connection).connection = connection := by
  have htimed : w.timedOut = false := by
    rw [Waiting.timedOut, hresult]
    rcases result with e | _
    · cases e <;> first | rfl | exact absurd rfl hreportable.1
    · rfl
  unfold finish
  dsimp only
  rw [htimed, if_neg Bool.false_ne_true, hresult]
  exact ⟨rfl, rfl, rfl⟩

/-- A caller that gave up returns the timeout, and closes the session and the connection. -/
theorem finish_of_gaveUp {w : Waiting} (hresult : w.result = some (.error .timeout))
    (client : Client) (path : String) (x : Exchange) (session : Remote.Session)
    (connection : Remote.Connection) :
    (client.finish path x w session connection).result = .error .timeout ∧
      (client.finish path x w session connection).session.calls
        = session.calls ++ [.run (client.command path), .close] ∧
      (client.finish path x w session connection).connection = connection.close.2 := by
  have htimed : w.timedOut = true := by rw [Waiting.timedOut, hresult]
  unfold finish
  dsimp only
  rw [htimed, if_pos rfl, hresult]
  refine ⟨rfl, ?_, rfl⟩
  show session.calls ++ [_] ++ [_] = _
  rw [List.append_assoc]
  rfl

/-- What accounts for both reports settles the copy. -/
theorem settles_of_accounts {both : List Report} (hboth : both.length = 2)
    (hreportable : ∀ r ∈ both, Reportable r) {driver runner : Task} {ms : List Moment}
    {w : Waiting} (h : Accounts both driver runner ms w) (hresult : w.result ≠ none)
    (client : Client) (path : String) (x : Exchange) (session : Remote.Session)
    (connection : Remote.Connection) :
    client.Settles path session connection ms w
      (client.finish path x w session connection) := by
  by_cases htaken : w.taken = 2
  · -- both reports were taken, so they are all there is
    obtain ⟨hconcluded, hnot⟩ := h.decides.concluded htaken
    have hlength := h.length_eq hboth
    obtain ⟨got, hreports, -, hfailure⟩ := h.taken
    have hqueue : w.queue = [] := List.eq_nil_of_length_eq_zero (by omega)
    rw [hqueue, List.append_nil] at hreports
    rw [hfailure, Waiting.conclude_foldl_firstFailure, ← hreports] at hconcluded
    have hearliest : Reportable (earliest (reports ms)) := by
      rcases hcase : earliest (reports ms) with e | _
      · have hmem : .error e ∈ both :=
          h.made.mem_iff.1 (List.mem_append_left _ (mem_of_earliest_eq_error hcase))
        exact hreportable _ hmem
      · exact reportable_ok
    obtain ⟨hreturned, hcalls, hconnection⟩ :=
      finish_of_taken hconcluded hearliest client path x session connection
    constructor
    · rw [hreturned, earliest_eq_ok]
      exact ⟨fun hok => ⟨htaken, hok⟩, fun hok => hok.2⟩
    · exact fun _ => hreturned
    · rw [hreturned]
      exact ⟨fun htimeout => absurd htimeout hearliest.1, fun hgave => absurd hgave hnot⟩
    · exact ⟨fun _ => hnot, fun _ => htaken⟩
    · rw [hreturned]
      exact hearliest.2
    · exact fun hgave => absurd hgave hnot
    · exact fun _ => ⟨hcalls, hconnection⟩
  · -- the caller has concluded without them, so it gave up
    have hgave : GaveUp ms :=
      Classical.byContradiction fun hnot => hresult (h.decides.waits htaken hnot)
    obtain ⟨hreturned, hcalls, hconnection⟩ :=
      finish_of_gaveUp (h.decides.gaveUp hgave) client path x session connection
    constructor
    · rw [hreturned]
      exact ⟨nofun, fun hok => absurd hok.1 htaken⟩
    · exact fun hboth => absurd hboth htaken
    · exact ⟨fun _ => hgave, fun _ => hreturned⟩
    · exact ⟨fun hboth => absurd hboth htaken, fun hnot => absurd hgave hnot⟩
    · rw [hreturned]
      exact nofun
    · exact fun _ => ⟨hcalls, hconnection⟩
    · exact fun hnot => absurd hgave hnot

/-- **A caller in every order.**  Let the sender report `d` and the receiver end with `o`, and let
their moments, the deadline and the turns of the caller come in any order.  Then every report finds
room in the queue, which never holds more than two; both tasks can come to their end from there,
whatever the caller does; a caller that has two more turns behind the deadline has concluded; a
caller that has received two reports has received those of the two tasks; and a copy whose caller
has concluded has settled. -/
theorem finish_in_every_order (client : Client) (path : String) (session : Remote.Session)
    (connection : Remote.Connection) (x : Exchange) {d : Report} (hd : SenderReport d)
    (o : Except SshError Unit) {ms : List Moment} {driver runner : Task}
    (h : Schedule (.busy d) (.busy (Exchange.receiverReport o)) ms driver runner) :
    ∃ w, Waiting.run {} ms = some w ∧
      w.queue.length ≤ 2 ∧
      (∃ v, Waiting.run w (driver.rest ++ runner.rest) = some v ∧ v.tasks = 0) ∧
      (.deadline ∈ ms → w.receive.receive.result ≠ none) ∧
      (w.taken = 2 → (reports ms).Perm [d, Exchange.receiverReport o]) ∧
      (w.result ≠ none → client.Settles path session connection ms w
        (client.finish path x w session connection)) := by
  have hboth : [d, Exchange.receiverReport o].length = 2 := rfl
  obtain ⟨w, hrun, haccounts⟩ := h.accounts hboth (Accounts.start d (Exchange.receiverReport o))
  rw [List.nil_append] at haccounts
  have hlength := haccounts.length_eq hboth
  refine ⟨w, hrun, by omega, haccounts.both_end hboth, haccounts.receive_twice_late hboth, ?_, ?_⟩
  · intro htaken
    have hmade := haccounts.made
    have hdriver : driver.owed = [] := List.eq_nil_of_length_eq_zero (by omega)
    have hrunner : runner.owed = [] := List.eq_nil_of_length_eq_zero (by omega)
    rw [hdriver, hrunner, List.append_nil, List.append_nil] at hmade
    exact hmade
  · intro hresult
    exact settles_of_accounts hboth (reportable_both hd o) haccounts hresult client path x session
      connection

end Client

/-! ### The order in which a copy is played -/

namespace Exchange

/-- The report of the receiver of an exchange, if there is one. -/
def receiver? (x : Exchange) : Option Report :=
  x.played.outcome.map receiverReport

/-- Both sides have reported at most once each, one behind the other, and the sender has reported
what a sender can. -/
structure Consistent (x : Exchange) : Prop where
  inOrder : x.reports = x.sender.toList ++ x.receiver?.toList ∨
    x.reports = x.receiver?.toList ++ x.sender.toList
  sent : ∀ r, x.sender = some r → SenderReport r

theorem Consistent.receiverTurn {x : Exchange} (h : x.Consistent) (script : Remote.Script) :
    (x.receiverTurn script).Consistent := by
  unfold Exchange.receiverTurn
  split
  · exact h
  · next hwaits =>
    refine ⟨.inl ?_, h.sent⟩
    have hbefore : x.reports = x.sender.toList := by
      have hnone : x.receiver? = none := by rw [receiver?, hwaits]; rfl
      rcases h.inOrder with hreports | hreports
      all_goals rw [hreports, hnone]
      · exact List.append_nil _
      · rfl
    dsimp only
    rw [hbefore]
    rfl

theorem Consistent.senderTurn {x : Exchange} (h : x.Consistent) (sending : Sending)
    (late : Bool) : (x.senderTurn sending late).Consistent := by
  unfold Exchange.senderTurn
  split
  · exact h
  · next hwaits =>
    refine ⟨.inr ?_, fun r hr => Sending.senderReport_of_progress hr⟩
    have hbefore : x.reports = x.receiver?.toList := by
      rcases h.inOrder with hreports | hreports
      all_goals rw [hreports, hwaits]
      · rfl
      · exact List.append_nil _
    dsimp only
    rw [hbefore]
    rfl

theorem Consistent.settle {x : Exchange} (h : x.Consistent) (sending : Sending)
    (script : Remote.Script) (rounds : Nat) : (settle sending script rounds x).Consistent := by
  induction rounds generalizing x with
  | zero => exact h
  | succ rounds ih => exact ih ((h.receiverTurn script).senderTurn sending false)

theorem consistent_run (sending : Sending) (script : Remote.Script) (timeout : Nat) :
    (Exchange.run sending script timeout).Consistent := by
  have hstart : ({} : Exchange).Consistent := ⟨.inl rfl, nofun⟩
  have hsettled := (hstart.senderTurn sending false).settle sending script (rounds script)
  unfold Exchange.run
  dsimp only
  split
  · exact hsettled.senderTurn sending true
  · exact hsettled

theorem reports_moments (x : Exchange) : Copy.reports x.moments = x.reports := by
  have hseen : ∀ rs : List Report,
      Copy.reports (rs.flatMap fun r => [.report r, .leave, .receive]) = rs := by
    intro rs
    induction rs with
    | nil => rfl
    | cons r rs ih =>
      rw [List.flatMap_cons, reports_append, ih]
      rfl
  unfold moments
  dsimp only
  split
  · rw [reports_append, hseen]
    exact List.append_nil _
  · exact hseen _

/-- The deadline is seen only when a report is missing. -/
theorem length_reports_of_deadline {x : Exchange} (h : .deadline ∈ x.moments) :
    x.reports.length < 2 := by
  unfold moments at h
  dsimp only at h
  split at h
  · next hshort => exact hshort
  · simp at h

/-- An exchange shows its caller the reports of its own tasks, of which the sender reports `d` if it
reports and the receiver ends with `o` if it ends: both of them that there are, and the deadline
only when one is missing. -/
structure Tells (x : Exchange) (d : Report) (o : Except SshError Unit) : Prop where
  sent : x.sender = none ∨ x.sender = some d
  ended : x.played.outcome = none ∨ x.played.outcome = some o
  told : (Copy.reports x.moments).Perm
    (x.sender.toList ++ (x.played.outcome.map receiverReport).toList)
  missing : .deadline ∈ x.moments → x.sender = none ∨ x.played.outcome = none

theorem Consistent.tells {x : Exchange} (h : x.Consistent) {d : Report} {o : Except SshError Unit}
    (hsent : x.sender = none ∨ x.sender = some d)
    (hended : x.played.outcome = none ∨ x.played.outcome = some o) : x.Tells d o where
  sent := hsent
  ended := hended
  told := by
    rw [reports_moments]
    rcases h.inOrder with hreports | hreports
    · exact List.Perm.of_eq hreports
    · rw [hreports]
      exact List.perm_append_comm
  missing := by
    intro hlate
    have hshort := length_reports_of_deadline hlate
    rcases hsent with hsender | hsender
    · exact .inl hsender
    · right
      cases houtcome : x.played.outcome with
      | none => rfl
      | some o =>
        have hboth : x.reports.length = 2 := by
          rcases h.inOrder with hreports | hreports <;>
            rw [hreports, hsender, receiver?, houtcome] <;> rfl
        omega

/-- What a caller sees of a consistent exchange is an order of its two tasks, behind which the
caller has concluded. -/
theorem Consistent.schedule {x : Exchange} (h : x.Consistent) :
    ∃ d o driver runner w, SenderReport d ∧ x.Tells d o ∧
      Schedule (.busy d) (.busy (receiverReport o)) x.moments driver runner ∧
      Waiting.run {} x.moments = some w ∧ w.result ≠ none := by
  have hreports := h.inOrder
  unfold receiver? at hreports
  rcases hsender : x.sender with _ | d
  all_goals rcases houtcome : x.played.outcome with _ | o
  all_goals rw [hsender, houtcome] at hreports
  · -- neither side has reported
    have hmoments : x.moments = [.deadline, .receive] := by
      rcases hreports with hreports | hreports <;> rw [moments, hreports] <;> rfl
    refine ⟨.ok (), .ok (), ?_⟩
    have htells : x.Tells (.ok ()) (.ok ()) := h.tells (.inl hsender) (.inl houtcome)
    rw [hmoments]
    exact ⟨_, _, _, .ok, htells, .deadline (.receive (.stop _ _)), rfl, nofun⟩
  · have hmoments : x.moments
        = [.report (receiverReport o), .leave, .receive, .deadline, .receive] := by
      rcases hreports with hreports | hreports <;> rw [moments, hreports] <;> rfl
    have htells : x.Tells (.ok ()) o := h.tells (.inl hsender) (.inr houtcome)
    rw [hmoments]
    exact ⟨.ok (), o, _, _, _, .ok, htells, .runner (.report _) (.runner .leave (.receive
      (.deadline (.receive (.stop _ _))))), rfl, nofun⟩
  · have hmoments : x.moments = [.report d, .leave, .receive, .deadline, .receive] := by
      rcases hreports with hreports | hreports <;> rw [moments, hreports] <;> rfl
    have htells : x.Tells d (.ok ()) := h.tells (.inr hsender) (.inl houtcome)
    rw [hmoments]
    exact ⟨d, .ok (), _, _, _, h.sent d hsender, htells, .driver (.report _) (.driver .leave
      (.receive (.deadline (.receive (.stop _ _))))), rfl, nofun⟩
  · -- both sides have, in one order or the other
    have htells : x.Tells d o := h.tells (.inr hsender) (.inr houtcome)
    rcases hreports with hreports | hreports
    · have hmoments : x.moments = [.report d, .leave, .receive,
          .report (receiverReport o), .leave, .receive] := by
        rw [moments, hreports]
        rfl
      rw [hmoments]
      exact ⟨d, o, _, _, _, h.sent d hsender, htells, .driver (.report _) (.driver .leave (.receive
        (.runner (.report _) (.runner .leave (.receive (.stop _ _)))))), rfl, nofun⟩
    · have hmoments : x.moments = [.report (receiverReport o), .leave, .receive,
          .report d, .leave, .receive] := by
        rw [moments, hreports]
        rfl
      rw [hmoments]
      exact ⟨d, o, _, _, _, h.sent d hsender, htells, .runner (.report _) (.runner .leave (.receive
        (.driver (.report _) (.driver .leave (.receive (.stop _ _)))))), rfl, nofun⟩

end Exchange

/-! ### Copies -/

namespace Client

theorem transferIn_of_run {client : Client} (order : Exchange → List Moment) {sending : Sending}
    {session : Remote.Session} {w : Waiting}
    (hrun : Waiting.run {} (order (Exchange.run sending session.script client.timeout)) = some w)
    (path : String) (connection : Remote.Connection) :
    client.transferIn order sending path session connection
      = client.finish path (Exchange.run sending session.script client.timeout) w session
          connection := by
  unfold transferIn
  dsimp only
  rw [hrun]
  rfl

/-- **A copy as it is played.**  Its two tasks go as far as they can; its caller sees their reports,
and the deadline if one is missing, in one of the orders above; and the copy settles. -/
theorem transfer_settles (client : Client) (sending : Sending) (path : String)
    (session : Remote.Session) (connection : Remote.Connection) :
    ∃ x d o driver runner w, x.Rests sending session.script client.timeout ∧ SenderReport d ∧
      x.Tells d o ∧
      Schedule (.busy d) (.busy (Exchange.receiverReport o)) x.moments driver runner ∧
      Waiting.run {} x.moments = some w ∧ w.result ≠ none ∧
      client.transfer sending path session connection
        = client.finish path x w session connection ∧
      client.Settles path session connection x.moments w
        (client.transfer sending path session connection) := by
  obtain ⟨d, o, driver, runner, w, hd, htells, hschedule, hrun, hresult⟩ :=
    (Exchange.consistent_run sending session.script client.timeout).schedule
  obtain ⟨v, hv, -, -, -, -, hsettles⟩ := client.finish_in_every_order path session connection
    (Exchange.run sending session.script client.timeout) hd o hschedule
  obtain rfl : w = v := Option.some.inj (hrun.symm.trans hv)
  have htransfer := transferIn_of_run Exchange.moments hrun path connection
  refine ⟨_, d, o, driver, runner, w, Exchange.rests_run sending session.script client.timeout, hd,
    htells, hschedule, hrun, hresult, htransfer, ?_⟩
  rw [transfer, htransfer]
  exact hsettles hresult

theorem copyIn_of_open {session : Remote.Session} (hinput : session.script.inputError = none)
    (houtput : session.script.outputError = none) (client : Client)
    (order : Exchange → List Moment) (source : Source) (path permissions : String) (size : Nat)
    (connection : Remote.Connection) :
    client.copyIn order source path permissions size session connection
      = client.transferIn order
          { header := Text.Utf8.ofString (fileHeader permissions size (baseName path)), source
            size } path session connection := by
  rw [copyIn, hinput, houtput]

/-- **A copy in every order.**

* A copy without its pipes starts no task: it fails, and closes nothing.
* Over open pipes, let the sender report `d` and the receiver end with `o`, and let their moments,
  the deadline and the turns of the caller come in any order, as far as they have come.  Then every
  report finds room in the queue, which never holds more than two; both tasks can come to their end
  from there, whatever the caller does; a caller that has two more turns behind the deadline has
  concluded; a caller that has received two reports has received those of the two tasks; and a copy
  whose caller has concluded has settled.
* The copy that is played is one of these.  Its two tasks go as far as they can with what they are
  given by each other; its caller sees their reports, and the deadline only if one is missing; and
  it settles. -/
theorem copy_in_every_order (client : Client) (source : Source) (path permissions : String)
    (size : Nat) (session : Remote.Session) (connection : Remote.Connection) :
    client.copy source path permissions size session connection
      = client.copyIn Exchange.moments source path permissions size session connection ∧
    (∀ order e, session.script.inputError = some e →
      client.copyIn order source path permissions size session connection
        = { result := .error (.transport "stdin pipe" e), session, connection }) ∧
    (∀ order e, session.script.inputError = none → session.script.outputError = some e →
      client.copyIn order source path permissions size session connection
        = { result := .error (.transport "stdout pipe" e), session, connection }) ∧
    (session.script.inputError = none → session.script.outputError = none →
      (∀ d o ms driver runner, SenderReport d →
        Schedule (.busy d) (.busy (Exchange.receiverReport o)) ms driver runner →
        ∃ w, Waiting.run {} ms = some w ∧
          w.queue.length ≤ 2 ∧
          (∃ v, Waiting.run w (driver.rest ++ runner.rest) = some v ∧ v.tasks = 0) ∧
          (.deadline ∈ ms → w.receive.receive.result ≠ none) ∧
          (w.taken = 2 → (reports ms).Perm [d, Exchange.receiverReport o]) ∧
          (w.result ≠ none → client.Settles path session connection ms w
            (client.copyIn (fun _ => ms) source path permissions size session connection))) ∧
      ∃ x d o driver runner w,
        x.Rests
          { header := Text.Utf8.ofString (fileHeader permissions size (baseName path)), source
            size } session.script client.timeout ∧
        SenderReport d ∧ x.Tells d o ∧
        Schedule (.busy d) (.busy (Exchange.receiverReport o)) x.moments driver runner ∧
        Waiting.run {} x.moments = some w ∧ w.result ≠ none ∧
        client.copy source path permissions size session connection
          = client.finish path x w session connection ∧
        client.Settles path session connection x.moments w
          (client.copy source path permissions size session connection)) := by
  refine ⟨rfl, ?_, ?_, ?_⟩
  · intro order e hinput
    rw [copyIn, hinput]
  · intro order e hinput houtput
    rw [copyIn, hinput, houtput]
  · intro hinput houtput
    refine ⟨?_, ?_⟩
    · intro d o ms driver runner hd hschedule
      rw [copyIn_of_open hinput houtput]
      generalize Sending.mk _ source size = sending
      obtain ⟨w, hrun, hroom, hends, hlate, htaken, hsettles⟩ :=
        client.finish_in_every_order path session connection
          (Exchange.run sending session.script client.timeout) hd o hschedule
      rw [transferIn_of_run (fun _ => ms) hrun]
      exact ⟨w, hrun, hroom, hends, hlate, htaken, hsettles⟩
    · rw [copy, copyIn_of_open hinput houtput]
      exact client.transfer_settles _ path session connection

/-- The caller takes an error, waits for the other report until the deadline has passed, and gives
up; the report that comes then still finds room. -/
def lateReport : List Moment :=
  [.report (.error (.shortRead 2 1)), .receive, .leave, .deadline, .receive, .report (.ok ())]

/-- Such a copy times out, although it has received an error. -/
theorem copy_in_order_of_lateReport :
    ∃ w, Waiting.run {} lateReport = some w ∧ w.result = some (.error .timeout) ∧
      ({} : Client).Settles "/f" { script := {} } {} lateReport w
        (({} : Client).copyIn (fun _ => lateReport) { bytes := [] } "/f" "0644" 0 { script := {} }
          {}) := by
  have h : Schedule (.busy (.error (.shortRead 2 1))) (.busy (Exchange.receiverReport (.ok ())))
      lateReport .gone .reported :=
    .driver (.report _) (.receive (.driver .leave (.deadline (.receive
      (.runner (.report _) (.stop _ _))))))
  obtain ⟨w, hrun, -, -, -, -, hsettles⟩ :=
    ((copy_in_every_order {} { bytes := [] } "/f" "0644" 0 { script := {} } {}).2.2.2 rfl rfl).1
      _ (.ok ()) _ _ _ (.shortRead 2 1) h
  cases hrun
  exact ⟨_, rfl, rfl, hsettles nofun⟩

end Client

end Runbook.Copy
