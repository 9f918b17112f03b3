import Runbook.Copy.Message
import Runbook.Error
/-!
# The sender of a copy

A sender announces a file, waits for an answer, writes the contents and the mark behind them, and
waits for a second answer:

* `Source` — the bytes to copy, and the error behind them if there is one;
* `Sending` — the announcement, the source and the size that was announced;
* `Answers` — what the receiver has answered so far;
* `Sending.progress` — what a sender has written and how it ended, by what it was answered.

A sender writes no contents before the first answer is a success, and the mark only behind
contents of the announced size.

## Scope

`progress` is a function of all answers so far, so a sender that waits is one whose outcome is
missing; with more answers it has written the same bytes and perhaps more.
-/

namespace Runbook.Copy

/-- Bytes, and behind them the end or an error. -/
structure Source where
  bytes : List UInt8
  failure : Option IoError := none
deriving DecidableEq, Repr

/-- A source read to its end. -/
def Source.contents (s : Source) : Except IoError (List UInt8) :=
  match s.failure with
  | some e => .error e
  | none => .ok s.bytes

/-- A file to copy. -/
structure Sending where
  header : List UInt8
  source : Source
  size : Nat
deriving DecidableEq, Repr

/-- The bytes that the receiver has answered, and whether there will be no more. -/
structure Answers where
  bytes : List UInt8 := []
  ended : Bool := false
deriving DecidableEq, Repr

/-- What a sender has written, and how it ended; it waits if it has not ended. -/
structure Progress where
  written : List UInt8
  outcome : Option (Except ScpError Unit)

/-- The error of a write to a receiver that has gone. -/
def receiverGone : IoError := ⟨.brokenPipe, "pipe closed"⟩

/-- Read the next answer; none if it has not come yet. -/
def acknowledge (stage : String) (answers : Answers) : Option (Except ScpError Answers) :=
  if !answers.ended && !Response.isComplete answers.bytes then none
  else
    match Response.read answers.bytes with
    | (.error e, _) => some (.error (.io stage e))
    | (.ok r, rest) =>
      if r.isFailure then some (.error (.remote stage r.message))
      else some (.ok { answers with bytes := rest })

namespace Sending

/-- The bytes of the source that are sent. -/
def contents (s : Sending) : List UInt8 :=
  s.source.bytes.take s.size

/-- What a sender writes when nothing goes wrong. -/
def whole (s : Sending) : List UInt8 :=
  s.header ++ s.contents ++ [endMarker]

/-- Whether a receiver that takes `room` bytes takes `count` of them. -/
def fits (room : Option Nat) (count : Nat) : Bool :=
  room.all (count ≤ ·)

/-- The last part: the mark and the answer to the contents. -/
def finish (s : Sending) (room : Option Nat) (answers : Answers) : Progress :=
  let sent := s.header ++ s.contents
  if !fits room (sent.length + 1) then
    ⟨sent, some (.error (.io "write end marker" receiverGone))⟩
  else
    ⟨s.whole,
      (acknowledge "acknowledge contents" answers).map fun answer => answer.map fun _ => ()⟩

/-- The part between the two answers. -/
def deliver (s : Sending) (room : Option Nat) (answers : Answers) : Progress :=
  let sent := s.header ++ s.contents
  if !s.contents.isEmpty && !fits room sent.length then
    ⟨sent.take (room.getD 0), some (.error (.io "stream contents" receiverGone))⟩
  else if s.source.bytes.length < s.size then
    match s.source.failure with
    | some e => ⟨sent, some (.error (.io "stream contents" e))⟩
    | none => ⟨sent, some (.error (.shortRead s.size s.contents.length))⟩
  else s.finish room answers

/-- What a sender has done by the time it has these answers; `room` bounds the bytes that a
receiver takes before it is gone. -/
def progress (s : Sending) (room : Option Nat) (answers : Answers) : Progress :=
  if !fits room s.header.length then
    ⟨s.header.take (room.getD 0), some (.error (.io "write header" receiverGone))⟩
  else
    match acknowledge "acknowledge header" answers with
    | none => ⟨s.header, none⟩
    | some (.error e) => ⟨s.header, some (.error e)⟩
    | some (.ok answers) => s.deliver room answers

end Sending

end Runbook.Copy
