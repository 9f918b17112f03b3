import Runbook.Remote.Script
import Runbook.Text.Blank
/-!
# Connections and sessions

* `Host` — another host as its connection shows it: its address, which requests for a session it
  refuses, and a script for each session;
* `Call` — a request to a session;
* `Session` — an open session with the calls it has seen;
* `Connection` — a connection with the sessions it has had.

A request that fails is still among the calls of its session.
-/

namespace Runbook.Remote

/-- Another host; `refusals` are its answers to the first requests for a session, and `refusal` is
its answer to all later ones. -/
structure Host where
  address : String := "host:22"
  refusals : List (Option SshError) := []
  refusal : Option SshError := none
  closeError : Option SshError := none
  scripts : List Script := []
deriving DecidableEq, Repr

/-- The script of a session by its number; the last script serves all later sessions. -/
def Host.script (host : Host) (index : Nat) : Script :=
  ((host.scripts[index]?).orElse fun _ => host.scripts.getLast?).getD {}

/-- How a host answers a request for a session by its number. -/
def Host.refusalAt (host : Host) (index : Nat) : Option SshError :=
  (host.refusals[index]?).getD host.refusal

/-- A request to a session. -/
inductive Call where
  | terminal (name : String) (columns rows : Nat)
  | environment (name value : String)
  | run (command : String)
  | close
deriving DecidableEq, Repr

/-- A call in words. -/
def Call.text : Call → String
  | .terminal name columns rows =>
    "pty " ++ name ++ " " ++ Text.natText columns ++ "x" ++ Text.natText rows
  | .environment name value => "env " ++ name ++ "=" ++ value
  | .run command => "run " ++ command
  | .close => "close"

/-- Whether a call sets a variable of the environment. -/
def Call.isEnvironment : Call → Bool
  | .environment _ _ => true
  | _ => false

/-- A session with the calls it has seen, in order, and the bytes its command has read. -/
structure Session where
  script : Script
  calls : List Call := []
  received : List UInt8 := []
deriving DecidableEq, Repr

/-- The result of a request that may be set to fail. -/
def outcomeOf (failure : Option SshError) : Except SshError Unit :=
  match failure with
  | some e => .error e
  | none => .ok ()

namespace Session

/-- Note a call. -/
def note (call : Call) (s : Session) : Session :=
  { s with calls := s.calls ++ [call] }

/-- Ask for a terminal. -/
def requestTerminal (name : String) (columns rows : Nat) (s : Session) :
    Except SshError Unit × Session :=
  (outcomeOf s.script.terminalError, s.note (.terminal name columns rows))

/-- Set a variable of the environment. -/
def setVariable (name value : String) (s : Session) : Except SshError Unit × Session :=
  (outcomeOf (s.script.environmentErrorAt (s.calls.countP Call.isEnvironment)),
    s.note (.environment name value))

/-- Run a command without input: the pieces it writes, and how it ends. -/
def run (command : String) (s : Session) : Except SshError Unit × List Chunk × Session :=
  let played := s.script.play { ended := true, closed := true }
  (played.outcome.getD (.ok ()), played.chunks,
    { s.note (.run command) with received := s.received ++ played.received })

/-- Close the session. -/
def close (s : Session) : Except SshError Unit × Session :=
  (outcomeOf s.script.closeError, s.note .close)

end Session

/-- A connection: its host, the number of sessions asked for, whether it is closed, and the sessions
it has had. -/
structure Connection where
  host : Host := {}
  requests : Nat := 0
  closed : Bool := false
  sessions : List Session := []
deriving DecidableEq, Repr

namespace Connection

/-- The next session of a connection. -/
def nextSession (c : Connection) : Session :=
  { script := c.host.script c.sessions.length }

/-- Ask for a session. -/
def openSession (c : Connection) : Except SshError Session × Connection :=
  match c.host.refusalAt c.requests with
  | some e => (.error e, { c with requests := c.requests + 1 })
  | none => (.ok c.nextSession, { c with requests := c.requests + 1 })

/-- Keep what a session has seen. -/
def keep (session : Session) (c : Connection) : Connection :=
  { c with sessions := c.sessions ++ [session] }

/-- Close the connection. -/
def close (c : Connection) : Except SshError Unit × Connection :=
  (outcomeOf c.host.closeError, { c with closed := true })

end Connection

end Runbook.Remote
