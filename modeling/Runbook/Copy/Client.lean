import Runbook.Clock
import Runbook.Copy.Sender
import Runbook.Copy.Waiting
import Runbook.Remote.Connection
import Runbook.Shell.Word
import Runbook.Text.Blank
/-!
# Copying a file to another host

A copy runs a receiver in a session and a sender beside it, and waits for both:

* `Exchange` — what sender and receiver have done so far;
* `Exchange.settle` — lets both go on until neither can;
* `Exchange.moments` — the reports of both in their order, and the deadline if one is missing;
* `Client.finish` — what a copy leaves when its caller waits no longer: the session and the connection
  are both closed if the deadline has passed, and else stay open;
* `Client.copyIn` — a copy over a session and its connection, whose reports, deadline and turns of
  the caller come in a given order;
* `Client.copy`, `Client.copyFile` — a copy in the order in which the exchange was played;
* `Client.deadline?`, `Client.overruns` — the deadline of a copy by what the clock shows when its
  tasks have been started, and whether the clock can show it at all;
* `Client.close` — closes both.

## Scope

The receiver goes on as far as it can before the sender has its next turn, so a receiver that ends
reports before a sender that waits for it.  Time passes only while both wait.
-/

namespace Runbook.Copy

open Remote

/-! ### Sender and receiver -/

/-- What sender and receiver have done, and their reports in order. -/
structure Exchange where
  written : List UInt8 := []
  played : Played := {}
  sender : Option Report := none
  reports : List Report := []

namespace Exchange

/-- The report of a receiver. -/
def receiverReport : Except SshError Unit → Report
  | .ok () => .ok ()
  | .error e => .error (.transport "session run scp" e)

/-- The receiver's turn. -/
def receiverTurn (script : Script) (x : Exchange) : Exchange :=
  match x.played.outcome with
  | some _ => x
  | none =>
    let played := script.play { bytes := x.written, ended := x.sender.isSome }
    { x with
      played
      reports := x.reports ++ (played.outcome.map receiverReport).toList }

/-- The answers that a sender sees; `late` tells whether an output that was held is closed. -/
def answers (late : Bool) (x : Exchange) : Answers :=
  { bytes := bytesOn .stdout x.played.chunks
    ended := x.played.outcome.isSome && (late || x.played.held == 0) }

/-- The sender's turn. -/
def senderTurn (sending : Sending) (late : Bool) (x : Exchange) : Exchange :=
  match x.sender with
  | some _ => x
  | none =>
    let room := if x.played.outcome.isSome then some x.written.length else none
    let progress := sending.progress room (x.answers late)
    { x with
      written := progress.written
      sender := progress.outcome
      reports := x.reports ++ progress.outcome.toList }

/-- Alternate turns. -/
def settle (sending : Sending) (script : Script) : (rounds : Nat) → Exchange → Exchange
  | 0, x => x
  | rounds + 1, x => settle sending script rounds ((x.receiverTurn script).senderTurn sending false)

/-- The rounds after which neither side goes on: each round but the last completes a step of the
receiver or a part of the sender. -/
def rounds (script : Script) : Nat :=
  script.steps.length + 5

/-- An exchange from its start; an output that is held for less than the deadline is waited
for. -/
def run (sending : Sending) (script : Script) (timeout : Nat) : Exchange :=
  let x := settle sending script (rounds script) (senderTurn sending false {})
  if x.played.outcome.isSome && x.sender.isNone && decide (x.played.held < timeout) then
    x.senderTurn sending true
  else x

/-- What a waiting caller sees of an exchange. -/
def moments (x : Exchange) : List Moment :=
  let seen := x.reports.flatMap fun r => [.report r, .leave, .receive]
  if x.reports.length < Waiting.capacity then seen ++ [.deadline, .receive] else seen

end Exchange

/-! ### Clients -/

/-- How copies are made: the receiver's program, and how many milliseconds a copy may take. -/
structure Client where
  program : String := "scp"
  timeout : Nat := 60000
deriving DecidableEq, Repr

/-- A copy that ended: its result, whether it gave up, and the session and the connection it
leaves. -/
structure Copied where
  result : Report
  timedOut : Bool := false
  session : Session
  connection : Connection

namespace Client

/-- The command line of the receiver. -/
def command (client : Client) (path : String) : String :=
  client.program ++ " -qt " ++ Shell.escapeString path

/-- The end of a copy whose caller waits no longer: what it leaves of the session and the connection,
by what it has seen. -/
def finish (client : Client) (path : String) (x : Exchange) (waiting : Waiting) (session : Session)
    (connection : Connection) : Copied :=
  let session := session.note (.run (client.command path))
  let result := waiting.result.getD (.error .timeout)
  if waiting.timedOut then
    let played := session.script.play { bytes := x.written, ended := true, closed := true }
    let session := { session with received := session.received ++ played.received }
    { result, timedOut := true, session := session.close.2, connection := connection.close.2 }
  else
    { result, connection
      session := { session with received := session.received ++ x.played.received } }

/-- A copy over pipes that are open, whose caller sees of the exchange what `order` says. -/
def transferIn (client : Client) (order : Exchange → List Moment) (sending : Sending)
    (path : String) (session : Session) (connection : Connection) : Copied :=
  let x := Exchange.run sending session.script client.timeout
  client.finish path x ((Waiting.run {} (order x)).getD {}) session connection

/-- A copy over pipes that are open. -/
def transfer (client : Client) (sending : Sending) (path : String) (session : Session)
    (connection : Connection) : Copied :=
  client.transferIn Exchange.moments sending path session connection

/-- Copy `size` bytes of a source, with a caller that sees what `order` says. -/
def copyIn (client : Client) (order : Exchange → List Moment) (source : Source)
    (path permissions : String) (size : Nat) (session : Session) (connection : Connection) :
    Copied :=
  match session.script.inputError, session.script.outputError with
  | some e, _ => { result := .error (.transport "stdin pipe" e), session, connection }
  | none, some e => { result := .error (.transport "stdout pipe" e), session, connection }
  | none, none =>
    let header := Text.Utf8.ofString (fileHeader permissions size (baseName path))
    client.transferIn order { header, source, size } path session connection

/-- Copy `size` bytes of a source. -/
def copy (client : Client) (source : Source) (path permissions : String) (size : Nat)
    (session : Session) (connection : Connection) : Copied :=
  client.copyIn Exchange.moments source path permissions size session connection

/-- Copy a source of unknown size, which is read to its end first. -/
def copyFile (client : Client) (source : Source) (path permissions : String)
    (session : Session) (connection : Connection) : Copied :=
  match source.contents with
  | .error e => { result := .error (.io "read all" e), session, connection }
  | .ok bytes => client.copy { bytes } path permissions bytes.length session connection

/-- Whether the tasks of a copy are started: its contents can be read and both pipes opened. -/
def starts (source : Source) (session : Session) : Bool :=
  source.failure.isNone && session.script.inputError.isNone && session.script.outputError.isNone

/-- The deadline of a copy whose tasks have been started at `now`, if a clock can show it. -/
def deadline? (client : Client) (now : Instant) : Option Instant :=
  now.after? (.ofMillis client.timeout)

/-- Whether a copy has started its tasks and finds no deadline for them. -/
def overruns (client : Client) (now : Instant) (source : Source) (session : Session) : Bool :=
  starts source session && (client.deadline? now).isNone

/-- Close a session and its connection; the first failure counts. -/
def close (session : Session) (connection : Connection) : Copied :=
  let (first, session) := session.close
  let (second, connection) := connection.close
  let result : Report :=
    match first, second with
    | .error e, _ => .error (.transport "close" e)
    | .ok (), .error e => .error (.transport "close" e)
    | .ok (), .ok () => .ok ()
  { result, session, connection }

/-! ### Durations -/

/-- Decimal digits of a fraction of `places` places, without trailing zeros. -/
def fraction (places part : Nat) : String :=
  let digits := (Text.padNat places part).toList.reverse.dropWhile (· == '0')
  if digits.isEmpty then "" else "." ++ String.ofList digits.reverse

/-- Milliseconds as a duration: in seconds, or in milliseconds if it is shorter than one. -/
def durationText (milliseconds : Nat) : String :=
  if milliseconds = 0 then "0ns"
  else if milliseconds < 1000 then Text.natText milliseconds ++ "ms"
  else Text.natText (milliseconds / 1000) ++ fraction 3 (milliseconds % 1000) ++ "s"

/-- What is logged when a copy gives up. -/
def timeoutNotice (client : Client) (path : String) : String :=
  "Copy to " ++ path ++ " timed out after " ++ durationText client.timeout

end Client

end Runbook.Copy
