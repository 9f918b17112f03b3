import Runbook.Error
/-!
# Waiting for a copy

A copy has two tasks that report once each into a queue, and a caller that takes the reports until
it has both or a deadline has passed:

* `Moment` — what can happen: a report, the end of a task, the deadline, and the caller's turn;
* `Waiting` — the queue and what the caller has seen;
* `Waiting.step` — the effect of a moment; a report finds no room in a queue that is full;
* `Waiting.run` — the effect of several moments.

The caller gives up only when the deadline has passed and the queue is empty.
-/

namespace Runbook.Copy

/-- What a task reports. -/
abbrev Report := Except ScpError Unit

/-- What can happen while a caller waits. -/
inductive Moment where
  | report (result : Report)
  | leave
  | deadline
  | receive

/-- A queue of reports, the tasks that still hold it, and what the caller has seen. -/
structure Waiting where
  queue : List Report := []
  tasks : Nat := 2
  taken : Nat := 0
  failure : Option ScpError := none
  expired : Bool := false
  result : Option Report := none

namespace Waiting

/-- The number of reports that a queue has room for. -/
def capacity : Nat := 2

/-- The result of a caller that waits no longer. -/
def conclude (failure : Option ScpError) : Report :=
  match failure with
  | some e => .error e
  | none => .ok ()

/-- Keep the first failure. -/
def firstFailure (failure : Option ScpError) : Report → Option ScpError
  | .ok _ => failure
  | .error e => some (failure.getD e)

/-- The caller takes a report. -/
def take (w : Waiting) (report : Report) (queue : List Report) : Waiting :=
  let failure := firstFailure w.failure report
  { w with
    queue, failure, taken := w.taken + 1
    result := if w.taken + 1 = capacity then some (conclude failure) else none }

/-- The caller's turn: it takes the oldest report, or gives up, or goes on waiting. -/
def receive (w : Waiting) : Waiting :=
  match w.result, w.queue with
  | some _, _ => w
  | none, report :: queue => w.take report queue
  | none, [] =>
    if w.tasks = 0 then { w with result := some (.error (w.failure.getD .taskLost)) }
    else if w.expired then { w with result := some (.error .timeout) }
    else w

/-- The effect of a moment; none if a report finds no room. -/
def step (w : Waiting) : Moment → Option Waiting
  | .report result =>
    if w.queue.length < capacity then some { w with queue := w.queue ++ [result] } else none
  | .leave => some { w with tasks := w.tasks - 1 }
  | .deadline => some { w with expired := true }
  | .receive => some w.receive

/-- The effect of several moments. -/
def run : Waiting → List Moment → Option Waiting
  | w, [] => some w
  | w, m :: rest => (w.step m).bind fun w => run w rest

/-- Whether a caller gave up. -/
def timedOut (w : Waiting) : Bool :=
  match w.result with
  | some (.error .timeout) => true
  | _ => false

end Waiting

end Runbook.Copy
