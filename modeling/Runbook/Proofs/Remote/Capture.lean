import Runbook.Proofs.Run.Redaction
import Runbook.Proofs.Text.Decoding
/-!
# What a remote command writes

A command on another host writes to two streams, piece by piece and in any order.  Each piece goes
to the output of the run, and a second time to the copy that becomes a variable.  This file follows
the pieces through the writers to the three places in which they end up.

* `Writer.Takes`, `Writer.get_write` — what one piece leaves in a buffer;
* `get_deliver` — what all pieces of both streams leave in it, by induction on the pieces;
* `State.get_receive`, `State.vars_receive` — a state that receives the pieces of a process;
* `Script.writing` — a far end that writes given pieces and then ends in a given way;
* `RemoteExec.Reaches` — an attempt gets as far as its command;
* `RemoteExec.attempt_captures_output` — everything that an attempt adds to the output of a run, and
  the variable that it sets.
-/

namespace Runbook

/-! ### Pieces and writers -/

namespace Writer

/-- No sink of the writer fails, and none stands in it twice. -/
structure Takes (writer : Writer) : Prop where
  sound : .broken ∉ writer
  nodup : writer.Nodup

/-- A piece ends up in the buffers of the writer and nowhere else. -/
theorem get_write (index : Nat) (bytes : List UInt8) {writer : Writer} (h : writer.Takes)
    (buffers : Buffers) :
    Buffers.get index (writer.write bytes buffers).2
      = Buffers.get index buffers ++ if .buffer index ∈ writer then bytes else [] := by
  induction writer generalizing buffers with
  | nil => simp [write]
  | cons sink rest ih =>
    have hrest : Takes rest :=
      ⟨fun hmem => h.sound (List.mem_cons_of_mem _ hmem), h.nodup.of_cons⟩
    cases sink with
    | broken => exact absurd List.mem_cons_self h.sound
    | buffer first =>
      rw [write, ih hrest]
      by_cases hindex : index = first
      · subst hindex
        have hlater : Sink.buffer index ∉ rest := (List.nodup_cons.1 h.nodup).1
        rw [Buffers.get_append_self, if_neg hlater, if_pos List.mem_cons_self, List.append_nil]
      · have hmem : Sink.buffer index ∈ Sink.buffer first :: rest ↔ Sink.buffer index ∈ rest := by
          simp [hindex]
        rw [Buffers.get_append_of_ne hindex]
        simp only [hmem]

end Writer

/-- **Pieces and buffers.**  A buffer gets the pieces of the streams whose writers it stands in, in
the order in which they were written. -/
theorem get_deliver (index : Nat) (heard : Stream → Bool) {stdout stderr : Writer}
    (hout : stdout.Takes) (herr : stderr.Takes)
    (hstdout : .buffer index ∈ stdout ↔ heard .stdout = true)
    (hstderr : .buffer index ∈ stderr ↔ heard .stderr = true) (chunks : List Chunk)
    (buffers : Buffers) :
    Buffers.get index (deliver stdout stderr chunks buffers)
      = Buffers.get index buffers
        ++ (chunks.filter fun chunk => heard chunk.1).flatMap Prod.snd := by
  induction chunks generalizing buffers with
  | nil => simp [deliver]
  | cons chunk rest ih =>
    obtain ⟨stream, bytes⟩ := chunk
    rw [List.filter_cons]
    cases stream with
    | stdout =>
      show Buffers.get index (deliver stdout stderr rest (stdout.write bytes buffers).2) = _
      rw [ih, Writer.get_write index bytes hout]
      simp only [hstdout]
      split <;> simp
    | stderr =>
      show Buffers.get index (deliver stdout stderr rest (stderr.write bytes buffers).2) = _
      rw [ih, Writer.get_write index bytes herr]
      simp only [hstderr]
      split <;> simp

/-! ### The output of a run -/

/-- The buffer in which a stream of a process ends up. -/
def Stream.place : Stream → Nat
  | .stdout => 0
  | .stderr => 1

namespace World

/-- The writers of a run, with or without the copy, take everything. -/
theorem takes_stepWriter {sink : Sink} (h : sink = .stdout ∨ sink = .stderr) (copied : Bool) :
    (stepWriter sink (if copied then some Sink.capture else none)).Takes := by
  rcases h with rfl | rfl <;> cases copied <;> exact ⟨by decide, by decide⟩

/-- Each stream ends up in its own buffer, whether or not a copy is kept. -/
theorem get_deliver (copied : Bool) (chunks : List Chunk) (w : World) (stream : Stream) :
    Buffers.get stream.place (w.deliver copied chunks).buffers
      = Buffers.get stream.place w.buffers ++ bytesOn stream chunks :=
  Runbook.get_deliver stream.place (fun other => other = stream)
    (takes_stepWriter (.inl rfl) copied) (takes_stepWriter (.inr rfl) copied)
    (by cases stream <;> cases copied <;> decide) (by cases stream <;> cases copied <;> decide)
    chunks w.buffers

/-- An empty copy that is filled with the pieces of both streams. -/
theorem captured_deliver (chunks : List Chunk) (w : World) :
    (w.clearCapture.deliver true chunks).captured
      = Text.Utf8.toStringLossy (chunks.flatMap Prod.snd) := by
  have hheard := Runbook.get_deliver 2 (fun _ => true)
    (takes_stepWriter (.inl rfl) true) (takes_stepWriter (.inr rfl) true)
    (by decide) (by decide) chunks w.clearCapture.buffers
  have hempty : Buffers.get 2 w.clearCapture.buffers = [] := Buffers.get_clear_self 2 w.buffers
  rw [hempty, List.nil_append, List.filter_true] at hheard
  exact congrArg Text.Utf8.toStringLossy hheard

theorem get_clearCapture (w : World) (stream : Stream) :
    Buffers.get stream.place w.clearCapture.buffers = Buffers.get stream.place w.buffers :=
  Buffers.get_clear_of_ne (by cases stream <;> decide) w.buffers

theorem stdout_log (level : Level) (text : String) (w : World) :
    (w.log level text).stdout = w.stdout := by
  rw [log]
  split
  · exact Buffers.get_append_of_ne (by decide) _ w.buffers
  · rfl

/-- A line is added to the standard error if its level is shown there. -/
theorem stderr_log (level : Level) (text : String) (w : World) :
    (w.log level text).stderr
      = w.stderr ++ if w.shows level then Text.Utf8.ofString (level.line text) else [] := by
  have hshows : (w.record (.log level text)).shows level = w.shows level := rfl
  rw [log, hshows]
  split
  · exact Buffers.get_append_self 1 _ w.buffers
  · exact (List.append_nil _).symm

end World

namespace State

theorem get_receive (target : String) (chunks : List Chunk) (s : State) (stream : Stream) :
    Buffers.get stream.place (s.receive target chunks).world.buffers
      = Buffers.get stream.place s.world.buffers ++ bytesOn stream chunks := by
  rw [receive]
  split
  · exact s.world.get_deliver false chunks stream
  · show Buffers.get stream.place
      (s.world.clearCapture.deliver true chunks).clearCapture.buffers = _
    rw [World.get_clearCapture, World.get_deliver, World.get_clearCapture]

/-- The variable for the output of a process is the only one that changes. -/
theorem vars_receive {target : String} (h : target ≠ "") (chunks : List Chunk) (s : State) :
    (s.receive target chunks).vars
      = s.vars.insert target (.str (Text.Utf8.toStringLossy (chunks.flatMap Prod.snd))) := by
  rw [receive, if_neg h]
  show s.vars.insert target (.str (s.world.clearCapture.deliver true chunks).captured) = _
  rw [World.captured_deliver]

end State

/-! ### Far ends that write -/

namespace Remote

/-- The step of a far end that writes a piece. -/
def FarStep.write : Chunk → FarStep
  | (.stdout, bytes) => .output bytes
  | (.stderr, bytes) => .errorOutput bytes

/-- A far end that writes pieces and then ends well or fails. -/
def Script.writing (chunks : List Chunk) (failure : Option SshError) : Script :=
  { steps := chunks.map FarStep.write, failure }

theorem Script.playSteps_write (result : Except SshError Unit) (chunks : List Chunk)
    (given : Given) :
    playSteps result (chunks.map FarStep.write) given
      = { chunks, outcome := some result } := by
  induction chunks with
  | nil => rfl
  | cons chunk rest ih =>
    obtain ⟨stream, bytes⟩ := chunk
    cases stream <;> simp [FarStep.write, playSteps, ih]

/-- Every list of pieces is written by some far end, and with every end. -/
theorem Session.run_writing (chunks : List Chunk) (failure : Option SshError) (calls : List Call)
    (received : List UInt8) (command : String) :
    let ran := Session.run command { script := .writing chunks failure, calls, received }
    ran.1 = outcomeOf failure ∧ ran.2.1 = chunks := by
  have hplayed := Script.playSteps_write (Script.writing chunks failure).result chunks
    { ended := true, closed := true }
  dsimp only [Session.run, Script.play]
  rw [show (Script.writing chunks failure).steps = chunks.map FarStep.write from rfl, hplayed]
  exact ⟨by cases failure <;> rfl, rfl⟩

end Remote

/-! ### Attempts -/

namespace RemoteExec

open Remote

/-- An attempt over a connection gets as far as its command: there is a line to run, a session is
granted, and the terminal and all variables of the environment are set; `session` is the session in
which the command then runs. -/
structure Reaches (exec : RemoteExec) (connection : Connection) (vars : Namespace)
    (session : Session) : Prop where
  command : exec.command vars ≠ ""
  ready : ∃ opened asked terminal, connection.openSession = (.ok opened, asked) ∧
    requestTerminal opened = (.ok (), terminal) ∧
    setEnvironment vars exec.environment terminal = (.ok (), session)

theorem stdout_showing (address shown : String) (s : State) :
    (showing address shown s).world.stdout
      = s.world.stdout ++ Text.Utf8.ofString (address ++ "$ " ++ shown ++ "\n") := by
  have hlogged := s.world.stdout_log .info ("Executing on " ++ address ++ ": " ++ shown)
  rw [← hlogged]
  exact Buffers.get_append_self 0 _ _

theorem stderr_showing (address shown : String) (s : State) :
    (showing address shown s).world.stderr
      = s.world.stderr ++ if s.world.shows .info then
          Text.Utf8.ofString
            (Level.line .info ("Executing on " ++ address ++ ": " ++ shown)) else [] := by
  rw [← World.stderr_log]
  exact Buffers.get_append_of_ne (by decide) _ _

section Attempt

variable {exec : RemoteExec} {connection : Connection} {s : State} {session : Session}
  (h : exec.Reaches connection s.vars session)

include h

/-- What an attempt comes to that gets as far as its command. -/
theorem attempt_of_reaches (givenName : String) :
    let ran := session.run (exec.command s.vars)
    ∃ left, exec.attempt givenName connection s
      = (ran.1.mapError .ssh,
        ((showing connection.host.address (exec.shown s.vars (exec.command s.vars)) s).receive
          exec.target ran.2.1).connect left) := by
  obtain ⟨opened, asked, terminal, hopened, hterminal, henvironment⟩ := h.ready
  rw [attempt_of_ne h.command, hopened]
  dsimp only
  generalize hshowing : showing _ _ s = shown
  have hvars : shown.vars = s.vars := by rw [← hshowing]; rfl
  rw [runInSession, hterminal]
  dsimp only
  rw [hvars, henvironment]
  exact ⟨_, rfl⟩

/-- The variables after such an attempt, however its command ends. -/
theorem vars_attempt (htarget : exec.target ≠ "") (givenName : String) :
    (exec.attempt givenName connection s).2.vars
      = s.vars.insert exec.target (.str (Text.Utf8.toStringLossy
          ((session.run (exec.command s.vars)).2.1.flatMap Prod.snd))) := by
  obtain ⟨left, hattempt⟩ := attempt_of_reaches h givenName
  rw [hattempt]
  exact State.vars_receive htarget _ _

end Attempt

/-- **What a command writes is captured.**  When an attempt with a variable for its output gets as
far as its command, whatever the command writes and however it ends:

* the result is that of the command;
* the variable, and no other one, is set to the decoded bytes of all pieces of both streams in the
  order in which they were written;
* the standard output gains the line that shows the command and then the pieces of the first
  stream;
* the standard error gains the pieces of the second stream, behind the line that logs the command if
  the run shows its log there;
* when the bytes in all are those of a text, the variable is this text;
* any other attempt whose far end writes the same bytes sets the variable to the same text, wherever
  the bytes are cut and whichever streams they are written to. -/
theorem attempt_captures_output (exec : RemoteExec) (givenName : String) {connection : Connection}
    {s : State} {session : Session} (htarget : exec.target ≠ "")
    (hreaches : exec.Reaches connection s.vars session) :
    let command := exec.command s.vars
    let shown := exec.shown s.vars command
    let address := connection.host.address
    let result := (session.run command).1
    let written := (session.run command).2.1
    let ended := exec.attempt givenName connection s
    ended.1 = result.mapError .ssh ∧
      ended.2.vars = s.vars.insert exec.target
        (.str (Text.Utf8.toStringLossy (written.flatMap Prod.snd))) ∧
      ended.2.world.stdout = s.world.stdout
        ++ Text.Utf8.ofString (address ++ "$ " ++ shown ++ "\n") ++ bytesOn .stdout written ∧
      ended.2.world.stderr = s.world.stderr
        ++ (if s.world.shows .info then
            Text.Utf8.ofString (Level.line .info ("Executing on " ++ address ++ ": " ++ shown))
          else [])
        ++ bytesOn .stderr written ∧
      (∀ text, written.flatMap Prod.snd = Text.Utf8.ofString text →
        Fields.get? exec.target ended.2.vars = some (.str text)) ∧
      ∀ (otherName : String) (other : Connection) (t : State) (otherSession : Session),
        exec.Reaches other t.vars otherSession →
        (otherSession.run (exec.command t.vars)).2.1.flatMap Prod.snd
          = written.flatMap Prod.snd →
        Fields.get? exec.target (exec.attempt otherName other t).2.vars
          = Fields.get? exec.target ended.2.vars := by
  obtain ⟨left, hattempt⟩ := attempt_of_reaches hreaches givenName
  refine ⟨by rw [hattempt], vars_attempt hreaches htarget givenName, ?_, ?_, ?_, ?_⟩
  · rw [hattempt, ← stdout_showing]
    exact State.get_receive _ _ _ .stdout
  · rw [hattempt, ← stderr_showing]
    exact State.get_receive _ _ _ .stderr
  · intro text htext
    rw [vars_attempt hreaches htarget, Fields.get?_insert_self, htext,
      Text.Utf8.toStringLossy_ofString]
  · intro otherName other t otherSession hother hbytes
    rw [vars_attempt hreaches htarget, vars_attempt hother htarget, Fields.get?_insert_self,
      Fields.get?_insert_self, hbytes]

/-- A command whose output becomes a variable. -/
def asking : RemoteExec :=
  { words := ["price"], target := "reply" }

/-- A host whose commands write given pieces and then fail. -/
def failingAfter (chunks : List Chunk) : Connection :=
  { host := { scripts := [.writing chunks (some (.exit 3))] } }

/-- The bytes of one character are cut in two places, and one of them is written to the other
stream; the variable has the character all the same, and the command has failed. -/
theorem attempt_captures_output_of_cut_character :
    let ended := asking.attempt "" (failingAfter
      [(.stdout, [0xE2]), (.stderr, [0x82]), (.stdout, [0xAC, 0x0A])]) { vars := [], world := {} }
    ended.1 = .error (.ssh (.exit 3)) ∧
      Fields.get? "reply" ended.2.vars = some (.str "€\n") ∧
      ended.2.world.stdout = Text.Utf8.ofString "host:22$ price\n" ++ [0xE2, 0xAC, 0x0A] ∧
      ended.2.world.stderr = [0x82] ∧
      Fields.get? "reply" (asking.attempt "" (failingAfter [(.stderr, [0xE2, 0x82, 0xAC, 0x0A])])
        { vars := [], world := {} }).2.vars = some (.str "€\n") := by
  have hreaches : ∀ chunks, asking.Reaches (failingAfter chunks) []
      { script := .writing chunks (some (.exit 3)), calls := [.terminal "xterm" 80 40] } :=
    fun chunks => ⟨by decide, _, _, _, rfl, rfl, rfl⟩
  have hbytes : Text.Utf8.ofString "€\n" = [0xE2, 0x82, 0xAC, 0x0A] := by
    rw [Text.Utf8.ofString_eq_encode]
    decide
  obtain ⟨hresult, -, hstdout, hstderr, htext, hsame⟩ := attempt_captures_output asking ""
    (s := { vars := [], world := {} }) (by decide) (hreaches
      [(.stdout, [0xE2]), (.stderr, [0x82]), (.stdout, [0xAC, 0x0A])])
  have hreply := htext "€\n" (by rw [(Session.run_writing _ _ _ _ _).2, hbytes]; rfl)
  refine ⟨hresult, hreply, hstdout, hstderr, ?_⟩
  rw [← hreply]
  refine hsame "" _ { vars := [], world := {} } _ (hreaches _) ?_
  rw [(Session.run_writing _ _ _ _ _).2, (Session.run_writing _ _ _ _ _).2]
  rfl

end RemoteExec

end Runbook
