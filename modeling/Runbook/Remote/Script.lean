import Runbook.Copy.Message
import Runbook.Error
import Runbook.Output
/-!
# What the far end does

The behaviour of a command that runs on another host, as far as its session shows it:

* `FarStep` — one thing a command does with its streams;
* `Script` — the commands of one session: which requests fail, and what a command does;
* `Script.play` — what a command has done once it was given some input.

Like a sender, a command that waits is one without an outcome: `play` is a function of all input so
far.
-/

namespace Runbook.Remote

/-- One thing that a command does. -/
inductive FarStep where
  | output (bytes : List UInt8)
  | errorOutput (bytes : List UInt8)
  | readLine
  | read (count : Nat)
  | readAll
  | holdOutput (milliseconds : Nat)
  | waitClose
deriving DecidableEq, Repr

/-- What happens in one session; `environmentErrors` belong to the first variables that are set, and
`environmentError` to all others. -/
structure Script where
  terminalError : Option SshError := none
  environmentErrors : List (Option SshError) := []
  environmentError : Option SshError := none
  inputError : Option SshError := none
  outputError : Option SshError := none
  closeError : Option SshError := none
  steps : List FarStep := []
  failure : Option SshError := none
deriving DecidableEq, Repr

/-- What a command has been given so far. -/
structure Given where
  bytes : List UInt8 := []
  ended : Bool := false
  closed : Bool := false
deriving DecidableEq, Repr

/-- What a command has done: the bytes it read, the pieces it wrote, how long its output stays
open after its end, and how it ended. -/
structure Played where
  received : List UInt8 := []
  chunks : List Chunk := []
  held : Nat := 0
  outcome : Option (Except SshError Unit) := none

namespace Played

/-- The same with bytes that were read before. -/
def after (bytes : List UInt8) (p : Played) : Played :=
  { p with received := bytes ++ p.received }

/-- A command that reads on at the end of its input. -/
def starved (bytes : List UInt8) : Played :=
  { received := bytes, outcome := some (.error (.io .unexpectedEnd)) }

end Played

namespace Script

/-- How a variable of the environment is taken, by the number of those before it. -/
def environmentErrorAt (s : Script) (index : Nat) : Option SshError :=
  (s.environmentErrors[index]?).getD s.environmentError

/-- The result of a command that did all its steps. -/
def result (s : Script) : Except SshError Unit :=
  match s.failure with
  | some e => .error e
  | none => .ok ()

/-- What the steps of a command do with their input. -/
def playSteps (result : Except SshError Unit) : List FarStep → Given → Played
  | [], _ => { outcome := some result }
  | .output bytes :: rest, given =>
    let p := playSteps result rest given
    { p with chunks := (.stdout, bytes) :: p.chunks }
  | .errorOutput bytes :: rest, given =>
    let p := playSteps result rest given
    { p with chunks := (.stderr, bytes) :: p.chunks }
  | .readLine :: rest, given =>
    match Copy.Response.splitLine? given.bytes with
    | some (line, more) =>
      (playSteps result rest { given with bytes := more }).after
        (line ++ [Copy.Response.newline])
    | none => if given.ended then .starved given.bytes else { received := given.bytes }
  | .read count :: rest, given =>
    if count ≤ given.bytes.length then
      (playSteps result rest { given with bytes := given.bytes.drop count }).after
        (given.bytes.take count)
    else if given.ended then .starved given.bytes
    else { received := given.bytes }
  | .readAll :: rest, given =>
    if given.ended then
      (playSteps result rest { given with bytes := [] }).after given.bytes
    else { received := given.bytes }
  | .holdOutput milliseconds :: rest, given =>
    let p := playSteps result rest given
    { p with held := max milliseconds p.held }
  | .waitClose :: _, given =>
    { outcome := if given.closed then some (.error .closed) else none }

/-- What a command has done. -/
def play (s : Script) (given : Given) : Played :=
  playSteps s.result s.steps given

end Script

end Runbook.Remote
