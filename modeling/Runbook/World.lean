import Runbook.Clock
import Runbook.Error
import Runbook.Output
import Runbook.Process
import Runbook.Remote.Connection
import Runbook.Storage.Basic
import Runbook.Text.Utf8
import Runbook.Value.Basic
/-!
# The world of a run

What a run can read and change besides its variables:

* `Event` — what can be seen from outside while a run goes on: log lines, the start of steps,
  hooks, pauses and marks;
* `World` — the local programs, the files, the output so far, the connection to another host, the
  clock, and the events so far;
* `World.log` — logs a line, and shows it on the standard error if the world is set to;
* `World.halt` — breaks a run off, with neither a result nor an error;
* `State` — the variables of a run and its world;
* `Action` — a change of the state that may fail.

## Scope

What local programs do is a parameter of a world; unless it says otherwise they are those of
`Process.run`.  The clock of a world stands still.  A run that was broken off has no result, and nothing of what the
steps behind that place would do is seen.
-/

namespace Runbook

/-- How important a log line is. -/
inductive Level where
  | debug
  | info
  | warn
  | error
deriving DecidableEq, Repr

namespace Level

/-- The name of a level. -/
def name : Level → String
  | .debug => "DEBUG"
  | .info => "INFO"
  | .warn => "WARN"
  | .error => "ERROR"

/-- The place of a level, from the least important one. -/
def rank : Level → Nat
  | .debug => 0
  | .info => 1
  | .warn => 2
  | .error => 3

/-- A log line as it is shown: warnings and errors carry the name of their level. -/
def line (level : Level) (text : String) : String :=
  match level with
  | .debug | .info => text ++ "\n"
  | .warn | .error => "[" ++ level.name ++ "] " ++ text ++ "\n"

end Level

/-- What can be seen of a run. -/
inductive Event where
  | log (level : Level) (text : String)
  | before (step : String) (count : Nat)
  | hook (name : String) (vars : Namespace)
  | sleep (seconds : Nat)
  | mark (number : Nat)
deriving Repr

/-- The world that a run acts on; `programs` tells what a program that is started does to the disk,
`past` holds the newest event first, `shown` is the least important level that is shown on the
standard error, and `halted` tells why the run was broken off, if it was. -/
structure World where
  programs : Process → Disk → Except IoError Finished := Process.run
  files : Files := {}
  buffers : Buffers := []
  connection : Option Remote.Connection := none
  seed : Nat := 0
  clock : Instant := .start
  halted : Option String := none
  shown : Option Level := none
  past : List Event := []

namespace World

/-- Add an event. -/
def record (event : Event) (w : World) : World :=
  { w with past := event :: w.past }

/-- The events in order. -/
def events (w : World) : List Event :=
  w.past.reverse

@[simp] theorem events_record (event : Event) (w : World) :
    (w.record event).events = w.events ++ [event] := by
  simp [record, events]

/-- Whether a level is shown. -/
def shows (w : World) (level : Level) : Bool :=
  w.shown.any fun least => least.rank ≤ level.rank

/-- Write a piece to a sink, which takes it or not. -/
def put (sink : Sink) (bytes : List UInt8) (w : World) : World :=
  { w with buffers := (Writer.write bytes [sink] w.buffers).2 }

/-- Log a line. -/
def log (level : Level) (text : String) (w : World) : World :=
  let w := w.record (.log level text)
  if w.shows level then w.put .stderr (Text.Utf8.ofString (level.line text)) else w

/-- A line is one more event, and nothing but the output is changed besides. -/
theorem exists_log (level : Level) (text : String) (w : World) :
    ∃ buffers, w.log level text = { w with past := .log level text :: w.past, buffers } := by
  unfold log
  dsimp only
  split
  · exact ⟨_, rfl⟩
  · exact ⟨w.buffers, rfl⟩

theorem files_log (level : Level) (text : String) (w : World) :
    (w.log level text).files = w.files := by
  obtain ⟨buffers, h⟩ := exists_log level text w
  rw [h]

theorem connection_log (level : Level) (text : String) (w : World) :
    (w.log level text).connection = w.connection := by
  obtain ⟨buffers, h⟩ := exists_log level text w
  rw [h]

theorem halted_log (level : Level) (text : String) (w : World) :
    (w.log level text).halted = w.halted := by
  obtain ⟨buffers, h⟩ := exists_log level text w
  rw [h]

/-- Break a run off; only the first reason is seen. -/
def halt (reason : String) (w : World) : World :=
  { w with halted := some (w.halted.getD reason) }

/-- The bytes of the standard output so far. -/
def stdout (w : World) : List UInt8 :=
  Buffers.get 0 w.buffers

/-- The bytes of the standard error so far. -/
def stderr (w : World) : List UInt8 :=
  Buffers.get 1 w.buffers

end World

/-- The variables of a run and its world. -/
structure State where
  vars : Namespace
  world : World

namespace State

/-- Bind a variable. -/
def set (key : String) (value : Value) (s : State) : State :=
  { s with vars := s.vars.insert key value }

/-- Log a line. -/
def log (level : Level) (text : String) (s : State) : State :=
  { s with world := s.world.log level text }

/-- Break a run off. -/
def halt (reason : String) (s : State) : State :=
  { s with world := s.world.halt reason }

/-- Add an event. -/
def record (event : Event) (s : State) : State :=
  { s with world := s.world.record event }

@[simp] theorem vars_log (level : Level) (text : String) (s : State) :
    (s.log level text).vars = s.vars := rfl

@[simp] theorem vars_record (event : Event) (s : State) : (s.record event).vars = s.vars := rfl

@[simp] theorem world_set (key : String) (value : Value) (s : State) :
    (s.set key value).world = s.world := rfl

end State

/-- A change of the state that may fail. -/
abbrev Action := State → Except StepError Unit × State

namespace Action

/-- Do nothing. -/
def done : Action := fun s => (.ok (), s)

/-- Fail. -/
def fail (e : StepError) : Action := fun s => (.error e, s)

end Action

end Runbook
