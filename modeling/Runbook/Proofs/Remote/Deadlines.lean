import Runbook.Proofs.Remote.Balance
import Runbook.Step.Record
/-!
# Deadlines of copies

A record gives the time that a copy may take in seconds, up to the largest number of 64 bits, and a
clock shows its seconds as a signed number of 64 bits.  This file says which copies find a deadline,
and that the time they are given is nothing to those that do not need it.

* `Instant.after?_eq_none`, `Instant.after?_left` — when a clock cannot show an instant, and that the
  instant behind what is left of a deadline can be shown at any time;
* `Copy.Client.copyFile_of_longer` — a copy that does not time out is the same with more time;
* `RemoteFile.halted_send`, `RemoteFile.halted_write` — a run is broken off exactly when the tasks
  of a copy are started and the clock cannot show their deadline;
* `RemoteFile.copies_with_any_timeout` — all of this, for every file and every clock.
-/

namespace Runbook

/-! ### Clocks -/

namespace Span

@[simp] theorem total_ofNanos (n : Nat) : (ofNanos n).total = n := by
  unfold total ofNanos
  exact Nat.div_add_mod' n billion

@[simp] theorem total_ofMillis (n : Nat) : (ofMillis n).total = n * 1000000 :=
  total_ofNanos _

end Span

namespace Instant

theorem seconds_eq_div (t : Instant) : t.seconds = t.total / billion := by
  have hnanos := t.nanos_lt
  unfold total
  unfold billion at *
  omega

theorem nanos_eq_mod (t : Instant) : t.nanos = (t.total % billion).toNat := by
  have hnanos := t.nanos_lt
  unfold total
  unfold billion at *
  omega

/-- Every instant is found by its nanoseconds. -/
theorem ofNanos?_total (t : Instant) : ofNanos? t.total = some t := by
  have hshown : -bound ≤ t.total / billion ∧ t.total / billion < bound := by
    rw [← seconds_eq_div]
    exact ⟨t.seconds_ge, t.seconds_lt⟩
  rw [ofNanos?, dif_pos hshown]
  exact congrArg some (Instant.ext t.seconds_eq_div.symm t.nanos_eq_mod.symm)

theorem total_of_ofNanos? {n : Int} {t : Instant} (h : ofNanos? n = some t) : t.total = n := by
  unfold ofNanos? at h
  split at h <;> cases h
  unfold total
  dsimp only
  unfold billion
  omega

/-- The deadline is what the clock shows and the span together. -/
theorem total_of_after? {t u : Instant} {d : Span} (h : t.after? d = some u) :
    u.total = t.total + d.total :=
  total_of_ofNanos? h

/-- An instant lies behind what a clock can show exactly when its seconds do. -/
theorem after?_eq_none {t : Instant} {d : Span} :
    t.after? d = none ↔ bound ≤ (t.total + d.total) / billion := by
  have hge := t.seconds_ge
  have hle : t.total / billion ≤ (t.total + d.total) / billion :=
    Int.ediv_le_ediv (by decide) (by omega)
  rw [← seconds_eq_div] at hle
  rw [after?, ofNanos?]
  split
  · next hshown => exact ⟨nofun, fun hbehind => absurd hshown.2 (by omega)⟩
  · next hhidden => exact ⟨fun _ => by omega, fun _ => rfl⟩

/-- Whole seconds are added to the seconds of the clock. -/
theorem after?_ofMillis_eq_none {t : Instant} {n : Nat} :
    t.after? (.ofMillis (1000 * n)) = none ↔ bound ≤ t.seconds + n := by
  have hnanos := t.nanos_lt
  have hsum : (t.total + (Span.ofMillis (1000 * n)).total) / billion = t.seconds + n := by
    rw [Span.total_ofMillis]
    unfold total
    unfold billion at *
    omega
  rw [after?_eq_none, hsum]

/-- The instant behind what is left of a deadline is the deadline, or what the clock shows when the
deadline has passed. -/
theorem after?_left (deadline now : Instant) :
    now.after? (deadline.left now)
      = some (if now.total ≤ deadline.total then deadline else now) := by
  unfold after? left
  rw [Span.total_ofNanos]
  split
  · next hleft =>
    have hsum : now.total + (deadline.total - now.total).toNat = deadline.total := by omega
    rw [hsum, ofNanos?_total]
  · next hpassed =>
    have hsum : now.total + (deadline.total - now.total).toNat = now.total := by omega
    rw [hsum, ofNanos?_total]

end Instant

/-! ### Copies with more time -/

namespace Copy

/-- With more time an exchange is the same, unless its sender is still waiting. -/
theorem Exchange.run_of_longer (sending : Sending) (script : Remote.Script) {timeout longer : Nat}
    (hlonger : timeout ≤ longer) :
    Exchange.run sending script longer = Exchange.run sending script timeout ∨
      (Exchange.run sending script timeout).sender = none := by
  unfold Exchange.run
  dsimp only
  generalize Exchange.settle sending script _ _ = x
  by_cases hheld : x.played.held < timeout
  · have hlater : x.played.held < longer := by omega
    simp only [hheld, hlater, true_or]
  · simp only [hheld, decide_false, Bool.and_false, Bool.false_eq_true, if_false]
    split
    · next hwaits =>
      simp only [Bool.and_eq_true, Option.isNone_iff_eq_none] at hwaits
      exact .inr hwaits.1.2
    · exact .inl rfl

/-- A caller of a sender that is still waiting at the deadline gives up. -/
theorem Exchange.Consistent.gives_up {x : Exchange} (h : x.Consistent) (hsender : x.sender = none) :
    ∃ w, Waiting.run {} x.moments = some w ∧ w.result = some (.error .timeout) := by
  have hreports := h.inOrder
  unfold Exchange.receiver? at hreports
  rw [hsender] at hreports
  have hshort : x.reports = (x.played.outcome.map receiverReport).toList := by
    rcases hreports with hreports | hreports <;> rw [hreports]
    · rfl
    · exact List.append_nil _
  rcases houtcome : x.played.outcome with _ | o
  all_goals rw [houtcome] at hshort
  · exact ⟨_, by rw [moments, hshort]; rfl, rfl⟩
  · exact ⟨_, by rw [moments, hshort]; rfl, rfl⟩

namespace Client

variable {client : Client} {longer : Nat} {path : String} {session : Remote.Session}
  {connection : Remote.Connection}

theorem transfer_of_longer {sending : Sending} (hlonger : client.timeout ≤ longer)
    (hends : (client.transfer sending path session connection).result ≠ .error .timeout) :
    ({ client with timeout := longer } : Client).transfer sending path session connection
      = client.transfer sending path session connection := by
  rcases Exchange.run_of_longer sending session.script hlonger with hsame | hsender
  · unfold transfer transferIn
    dsimp only
    rw [hsame]
    rfl
  · obtain ⟨w, hrun, hresult⟩ :=
      (Exchange.consistent_run sending session.script client.timeout).gives_up hsender
    refine absurd ?_ hends
    unfold transfer transferIn
    dsimp only
    rw [hrun]
    exact (finish_of_gaveUp hresult client path _ session connection).1

/-- **More time.**  A copy that does not time out is the same when it is given more time. -/
theorem copyFile_of_longer {source : Source} {permissions : String}
    (hlonger : client.timeout ≤ longer)
    (hends : (client.copyFile source path permissions session connection).result
      ≠ .error .timeout) :
    ({ client with timeout := longer } : Client).copyFile source path permissions session connection
      = client.copyFile source path permissions session connection := by
  unfold copyFile at hends ⊢
  split
  · rfl
  · next bytes hcontents =>
    rw [hcontents] at hends
    dsimp only at hends
    unfold copy copyIn at hends ⊢
    split
    · rfl
    · rfl
    · next hinput houtput =>
      rw [hinput, houtput] at hends
      exact transfer_of_longer hlonger hends

/-- Only a copy that fails with the timeout has given up. -/
theorem Copies.result_of_timedOut {source : Source} {copied : Copied}
    (h : client.Copies source path session connection copied) (htimed : copied.timedOut = true) :
    copied.result = .error .timeout := by
  cases h with
  | unread => cases htimed
  | noInput => cases htimed
  | noOutput => cases htimed
  | @ended d o ms driver runner w x hd hschedule hrun hresult =>
    rcases hreturned : w.timedOut with _ | _
    · unfold finish at htimed
      dsimp only at htimed
      rw [hreturned] at htimed
      cases htimed
    · have hgave : w.result = some (.error .timeout) := by
        unfold Waiting.timedOut at hreturned
        split at hreturned
        · assumption
        · cases hreturned
      exact (finish_of_gaveUp hgave client path x session connection).1

end Client

end Copy

/-! ### Files on another host -/

namespace State

@[simp] theorem halted_log (level : Level) (text : String) (s : State) :
    (s.log level text).world.halted = s.world.halted :=
  World.halted_log level text s.world

@[simp] theorem halted_connect (connection : Remote.Connection) (s : State) :
    (s.connect connection).world.halted = s.world.halted := rfl

end State

/-- A connection grants a session whose pipes can be opened. -/
def Remote.Connection.Grants (connection : Connection) : Prop :=
  ∃ session asked, connection.openSession = (.ok session, asked) ∧
    session.script.inputError = none ∧ session.script.outputError = none

namespace RemoteFile

/-- The time that a copy of a file may take, in seconds. -/
def seconds (file : RemoteFile) : Nat :=
  if file.timeout = 0 then 60 else file.timeout

theorem client_eq (file : RemoteFile) : file.client = { timeout := 1000 * file.seconds } := by
  unfold client seconds
  split <;> rfl

/-- The tasks of the copy of a file are started: its fields are given, its contents can be had, and
the run has a connection that grants what a copy needs. -/
def Starts (file : RemoteFile) (ctx : Context) (s : State) : Prop :=
  ¬file.Lacks ctx s ∧ ∃ connection, s.world.connection = some connection ∧ connection.Grants

/-- The clock of a run cannot show the deadline of a copy that is started now. -/
def Overruns (file : RemoteFile) (s : State) : Prop :=
  Instant.bound ≤ s.world.clock.seconds + file.seconds

theorem overruns_iff (file : RemoteFile) (bytes : List UInt8) (session : Remote.Session)
    (s : State) : file.client.overruns s.world.clock { bytes } session = true ↔
      session.script.inputError = none ∧ session.script.outputError = none ∧ file.Overruns s := by
  rw [Copy.Client.overruns, Copy.Client.starts, Copy.Client.deadline?, client_eq]
  simp only [Bool.and_eq_true, Option.isNone_iff_eq_none, Instant.after?_ofMillis_eq_none,
    true_and, and_assoc, Overruns]

theorem halted_await (file : RemoteFile) (bytes : List UInt8) (session : Remote.Session)
    {s : State} (hrunning : s.world.halted = none) :
    (file.await bytes session s).world.halted ≠ none ↔
      session.script.inputError = none ∧ session.script.outputError = none ∧ file.Overruns s := by
  rw [← file.overruns_iff bytes, await]
  split
  · next hoverruns => exact ⟨fun _ => hoverruns, fun _ => nofun⟩
  · next hshown =>
    rw [hrunning]
    exact ⟨fun hhalted => absurd rfl hhalted, fun hoverruns => absurd hoverruns hshown⟩

/-- A session is asked for, and the run is broken off if the tasks are started without a
deadline. -/
theorem halted_send (file : RemoteFile) (copier : Copier) (path : String) (bytes : List UInt8)
    (connection : Remote.Connection) {s : State} (hrunning : s.world.halted = none) :
    (file.send copier path bytes connection s).2.world.halted ≠ none ↔
      connection.Grants ∧ file.Overruns s := by
  rw [send]
  split
  · next e asked hrefused =>
    rw [State.halted_connect, hrunning]
    constructor
    · exact fun hhalted => absurd rfl hhalted
    · rintro ⟨⟨session, granted, hopened, -⟩, -⟩
      rw [hrefused] at hopened
      cases hopened
  · next session asked hgranted =>
    dsimp only
    rw [State.halted_connect, apply_ite (fun t : State => t.world.halted), State.halted_log,
      ite_self, file.halted_await bytes session hrunning]
    constructor
    · rintro ⟨hinput, houtput, hoverruns⟩
      exact ⟨⟨session, asked, hgranted, hinput, houtput⟩, hoverruns⟩
    · rintro ⟨⟨opened, granted, hopened, hinput, houtput⟩, hoverruns⟩
      rw [hgranted] at hopened
      cases hopened
      exact ⟨hinput, houtput, hoverruns⟩

/-- **Broken off.**  A file that is written breaks its run off exactly when the tasks of its copy are
started and the clock cannot show their deadline. -/
theorem halted_write (file : RemoteFile) (copier : Copier) (ctx : Context) (stepName : String)
    {s : State} (hrunning : s.world.halted = none) :
    (file.write copier ctx stepName s).2.world.halted ≠ none ↔
      file.Starts ctx s ∧ file.Overruns s := by
  have hidle : ¬(s.world.halted ≠ none) := not_not_intro hrunning
  rw [write, Starts, Lacks]
  split
  · next hfile => simp only [hidle, hfile, true_or, not_true_eq_false, false_and]
  · next hfile =>
    split
    · next hpermissions =>
      simp only [hidle, hpermissions, true_or, or_true, not_true_eq_false, false_and]
    · next hpermissions =>
      split
      · next hconnection => simp [hrunning, hconnection]
      · next connection hconnection =>
        dsimp only
        split
        · next e hbytes => simp [hrunning, hbytes]
        · next bytes hbytes =>
          rw [file.halted_send copier _ bytes connection hrunning]
          simp [hfile, hpermissions, hconnection, hbytes]

/-! ### More time -/

/-- A run whose clock can show the deadline waits. -/
theorem await_of_shown {file : RemoteFile} {s : State} (hshown : ¬file.Overruns s)
    (bytes : List UInt8) (session : Remote.Session) : file.await bytes session s = s := by
  rw [await, if_neg]
  rw [file.overruns_iff bytes session s]
  exact fun hoverruns => hshown hoverruns.2.2

section Longer

variable {file : RemoteFile} {n : Nat} (hlonger : file.seconds ≤ n)

include hlonger

theorem seconds_of_longer : ({ file with timeout := n } : RemoteFile).seconds = n := by
  have hpos : 0 < file.seconds := by
    unfold seconds
    split
    · decide
    · omega
  unfold seconds
  exact if_neg (by dsimp only; omega)

theorem copier_of_longer {path : String} {bytes : List UInt8} {session : Remote.Session}
    {connection : Remote.Connection}
    (hends : (file.copier path bytes session connection).result ≠ .error .timeout) :
    ({ file with timeout := n } : RemoteFile).copier path bytes session connection
      = file.copier path bytes session connection := by
  unfold copier at hends ⊢
  rw [client_eq] at hends ⊢
  rw [client_eq file, seconds_of_longer hlonger]
  exact Copy.Client.copyFile_of_longer (Nat.mul_le_mul_left 1000 hlonger) hends

variable {s : State} (hshown : s.world.clock.seconds + n < Instant.bound)

include hshown

theorem send_of_longer {path : String} {bytes : List UInt8} {connection : Remote.Connection}
    (hends : (file.send file.copier path bytes connection s).1 ≠ .error (.scp .timeout)) :
    ({ file with timeout := n } : RemoteFile).send
        ({ file with timeout := n } : RemoteFile).copier path bytes connection s
      = file.send file.copier path bytes connection s := by
  have hfits : ¬file.Overruns s := by
    unfold Overruns
    omega
  have hfits' : ¬({ file with timeout := n } : RemoteFile).Overruns s := by
    unfold Overruns
    rw [seconds_of_longer hlonger]
    omega
  unfold send at hends ⊢
  split
  · rfl
  · next session asked hgranted =>
    rw [hgranted] at hends
    dsimp only at hends ⊢
    have hresult : (file.copier path bytes session asked).result ≠ .error .timeout :=
      fun htimeout => hends (mapError_eq_timeout.2 htimeout)
    have hwaited : (file.copier path bytes session asked).timedOut = false := by
      rw [← Bool.not_eq_true]
      exact fun htimed =>
        hresult ((file.allows_copier path bytes session asked).result_of_timedOut htimed)
    rw [copier_of_longer hlonger hresult, await_of_shown hfits, await_of_shown hfits', hwaited]
    rfl

/-- **More time.**  A file that is written without a timeout is written in the same way when its
copy may take any longer time whose end the clock can show. -/
theorem write_of_longer {ctx : Context} {stepName : String}
    (hends : (file.write file.copier ctx stepName s).1 ≠ .error (.scp .timeout)) :
    ({ file with timeout := n } : RemoteFile).write
        ({ file with timeout := n } : RemoteFile).copier ctx stepName s
      = file.write file.copier ctx stepName s := by
  unfold write at hends ⊢
  dsimp only
  split
  · rfl
  · next hfile =>
    rw [if_neg hfile] at hends
    split
    · rfl
    · next hpermissions =>
      rw [if_neg hpermissions] at hends
      split
      · rfl
      · next connection hconnection =>
        rw [hconnection] at hends
        have hbytes : ({ file with timeout := n } : RemoteFile).bytes ctx s = file.bytes ctx s := rfl
        rw [hbytes]
        split
        · rfl
        · next bytes hread =>
          rw [hread] at hends
          exact send_of_longer hlonger hshown hends

end Longer

/-- **Copies with any timeout.**

* A run that writes a file is broken off exactly when the tasks of the copy are started and the
  clock cannot count the seconds up to its deadline.
* A deadline is found as the clock and the timeout together, and waiting for what is left of it is
  possible at any time.
* Every copy that is made has a result.
* A file that is written without a timeout is written in the same way with any longer timeout whose
  end the clock can show. -/
theorem copies_with_any_timeout (file : RemoteFile) (ctx : Context) (stepName : String) (s : State) :
    (s.world.halted = none →
      ((remoteFileAction ctx stepName file s).2.world.halted ≠ none ↔
        file.Starts ctx s ∧ Instant.bound ≤ s.world.clock.seconds + file.seconds)) ∧
    (∀ deadline, file.client.deadline? s.world.clock = some deadline →
      deadline.total = s.world.clock.total + file.seconds * billion ∧
      ∀ now : Instant, now.after? (deadline.left now)
        = some (if now.total ≤ deadline.total then deadline else now)) ∧
    (∀ path bytes session connection, file.client.Copies { bytes } path session connection
      (file.copier path bytes session connection)) ∧
    (∀ n, file.seconds ≤ n → s.world.clock.seconds + n < Instant.bound →
      (remoteFileAction ctx stepName file s).1 ≠ .error (.scp .timeout) →
      remoteFileAction ctx stepName { file with timeout := n } s
        = remoteFileAction ctx stepName file s) := by
  refine ⟨file.halted_write file.copier ctx stepName, ?_, file.allows_copier, ?_⟩
  · intro deadline hdeadline
    refine ⟨?_, fun now => Instant.after?_left deadline now⟩
    rw [Copy.Client.deadline?, client_eq] at hdeadline
    rw [Instant.total_of_after? hdeadline, Span.total_ofMillis]
    dsimp only
    unfold billion
    omega
  · exact fun n hlonger hshown hends => write_of_longer hlonger hshown hends

/-- A file of three bytes. -/
def threeBytes : RemoteFile :=
  { file := "/f", contents := "abc", permissions := "0644" }

/-- A run whose host takes such a file, and whose clock has just started. -/
def onTaker : State :=
  { vars := []
    world := { connection := some { host := { scripts :=
      [{ steps := [.readLine, .output [0], .read 4, .output [0]] }] } } } }

theorem ne_timeout_of_isOk {result : Except StepError Unit} (h : result.isOk = true) :
    result ≠ .error (.scp .timeout) := by
  rintro rfl
  cases h

/-- With the largest timeout that the clock can count up to, the file is written as in a minute. -/
theorem copies_with_any_timeout_of_threeBytes :
    onTaker.world.halted = none ∧
    threeBytes.client.deadline? .start = some { seconds := 60 } ∧
    ({ seconds := 60 } : Instant).total = Instant.start.total + threeBytes.seconds * billion ∧
    threeBytes.seconds ≤ 9223372036854775807 ∧
    onTaker.world.clock.seconds + 9223372036854775807 < Instant.bound ∧
    (remoteFileAction {} "" threeBytes onTaker).1 ≠ .error (.scp .timeout) ∧
    remoteFileAction {} "" { threeBytes with timeout := 9223372036854775807 } onTaker
      = remoteFileAction {} "" threeBytes onTaker ∧
    ¬(remoteFileAction {} "" { threeBytes with timeout := 9223372036854775807 }
      onTaker).2.world.halted ≠ none := by
  have hends : (remoteFileAction {} "" threeBytes onTaker).1 ≠ .error (.scp .timeout) :=
    ne_timeout_of_isOk (by decide +kernel)
  have hlonger : threeBytes.seconds ≤ 9223372036854775807 := by decide
  have hshown : onTaker.world.clock.seconds + 9223372036854775807 < Instant.bound := by decide
  have hminute : threeBytes.client.deadline? .start = some { seconds := 60 } := by decide +kernel
  obtain ⟨-, hdeadline, -, hsame⟩ := copies_with_any_timeout threeBytes {} "" onTaker
  obtain ⟨hhalts, -⟩ := copies_with_any_timeout
    { threeBytes with timeout := 9223372036854775807 } {} "" onTaker
  refine ⟨rfl, hminute, (hdeadline _ hminute).1, hlonger, hshown, hends,
    hsame _ hlonger hshown hends, ?_⟩
  rw [hhalts rfl]
  rintro ⟨-, hbehind⟩
  exact absurd hbehind (by decide)

/-- With the largest timeout of a record, the same run is broken off. -/
theorem largest_timeout_breaks_off :
    Body.ofRecord? .remoteFile
        [("contents", .str "abc"), ("file", .str "/f"), ("permissions", .str "0644"),
          ("timeout", .nat 18446744073709551615)]
      = some (.remoteFile { threeBytes with timeout := 18446744073709551615 }) ∧
    (remoteFileAction {} "" { threeBytes with timeout := 18446744073709551615 }
      onTaker).2.world.halted = some noDeadline ∧
    (remoteFileAction {} "" threeBytes onTaker).1.isOk = true :=
  ⟨rfl, by decide +kernel, by decide +kernel⟩

end RemoteFile

end Runbook
