import Runbook.Copy.Client
import Runbook.Run.Local
/-!
# Steps that act on another host

* `RemoteExec.attempt`, `remoteExecAction` — a command in a session of its own, under a policy;
* `runInSession` — the requests of such a session, up to the first that fails;
* `RemoteFile.bytes`, `RemoteFile.write`, `remoteFileAction` — a file that is copied to the other
  host;
* `RemoteFile.await` — the deadline of such a copy, without which a run is broken off.

Every session that a step opens is closed before the step ends.

## Scope

The standard output of a world is a sink that accepts all writes: the line that announces a command
is never refused.
-/

namespace Runbook

open Remote

/-- The error of a step that got no session. -/
def sessionRefused (e : SshError) : StepError :=
  (StepError.ssh e).within "unable to get ssh session"

/-! ### Commands -/

/-- The name and the size of the terminal of a session. -/
def requestTerminal (session : Session) : Except SshError Unit × Session :=
  session.requestTerminal "xterm" 80 40

/-- Set variables of the environment, whose values are templates, up to the first failure. -/
def setEnvironment (vars : Namespace) : List (String × String) → Session →
    Except SshError Unit × Session
  | [], session => (.ok (), session)
  | (name, value) :: rest, session =>
    match session.setVariable name (interpolate vars value) with
    | (.ok (), session) => setEnvironment vars rest session
    | (.error e, session) => (.error e, session)

/-- Run a command in an open session. -/
def runInSession (exec : RemoteExec) (command : String) (session : Session) (s : State) :
    Except StepError Unit × Session × State :=
  match requestTerminal session with
  | (.error e, session) => (.error ((StepError.ssh e).within "failed to request pty"), session, s)
  | (.ok (), session) =>
    match setEnvironment s.vars exec.environment session with
    | (.error e, session) =>
      (.error ((StepError.ssh e).within "failed to set ssh environment variable"), session, s)
    | (.ok (), session) =>
      let (result, chunks, session) := session.run command
      (result.mapError .ssh, session, s.receive exec.target chunks)

/-- The command line of a remote command over the variables of a run. -/
def RemoteExec.command (exec : RemoteExec) (vars : Namespace) : String :=
  Shell.commandLine (exec.words.map (interpolate vars))

/-- What is shown of a command. -/
def RemoteExec.shown (exec : RemoteExec) (vars : Namespace) (command : String) : String :=
  if exec.shownAs = "" then command
  else if exec.shownAs = "-" then "[command redacted]"
  else interpolate vars exec.shownAs

/-- Replace the connection of a state. -/
def State.connect (connection : Connection) (s : State) : State :=
  { s with world := { s.world with connection := some connection } }

/-- Run a remote command once. -/
def RemoteExec.attempt (exec : RemoteExec) (givenName : String) (connection : Connection) :
    Action := fun s =>
  let command := exec.command s.vars
  if command = "" then (.error (emptyCommand givenName), s)
  else
    let address := connection.host.address
    let shown := exec.shown s.vars command
    let s := s.log .info ("Executing on " ++ address ++ ": " ++ shown)
    let echo := Text.Utf8.ofString (address ++ "$ " ++ shown ++ "\n")
    let s := { s with world := s.world.put .stdout echo }
    match connection.openSession with
    | (.error e, connection) => (.error (sessionRefused e), s.connect connection)
    | (.ok session, connection) =>
      let (result, session, s) := runInSession exec command session s
      let session := session.close.2
      (result, s.connect (connection.keep session))

/-- The error of a remote command without a connection. -/
def connectionNeeded : StepError :=
  .definition "ssh_exec: no connection configured"

/-- Run a remote command under its policy. -/
def remoteExecAction (ctx : Context) (stepName givenName : String) (exec : RemoteExec) : Action :=
  fun s =>
    match ctx.engine?, s.world.connection with
    | .error e, _ => (.error e, s)
    | .ok _, none => (.error connectionNeeded, s)
    | .ok _, some first =>
      exec.retry.run ctx stepName (fun _ s =>
        exec.attempt givenName (s.world.connection.getD first) s) s

/-! ### Files -/

/-- The contents of a remote file: of a variable, of a local file, or of a template. -/
def RemoteFile.bytes (file : RemoteFile) (ctx : Context) (s : State) :
    Except StepError (List UInt8) :=
  if file.contentsVariable ≠ "" then
    let name := interpolate s.vars file.contentsVariable
    match Fields.get? name s.vars with
    | some (.str text) => .ok (Text.Utf8.ofString text)
    | some .null | none =>
      .error (.definition ("variable " ++ Text.quoted name ++ " does not exist"))
    | some v => .ok (Text.Utf8.ofString v.text)
  else if file.contentsFile ≠ "" then
    match ctx.fileSystem.read s.world.files (interpolate s.vars file.contentsFile) with
    | .ok bytes => .ok bytes
    | .error e => .error ((StepError.io e).within "can't open local file")
  else .ok (Text.Utf8.ofString (interpolate s.vars file.contents))

/-- How the file of a step is copied. -/
def RemoteFile.client (file : RemoteFile) : Copy.Client :=
  if file.timeout = 0 then {} else { timeout := 1000 * file.timeout }

/-- How bytes are copied to a path, in an open session and over its connection. -/
abbrev Copier := (path : String) → List UInt8 → Session → Connection → Copy.Copied

/-- The copier of a file. -/
def RemoteFile.copier (file : RemoteFile) : Copier := fun path bytes session connection =>
  file.client.copyFile { bytes } path file.permissions session connection

/-- Why a run is broken off whose clock cannot show a deadline. -/
def noDeadline : String := "overflow when adding duration to instant"

/-- Wait for a copy: a run is broken off if the tasks have been started and the clock cannot show
their deadline. -/
def RemoteFile.await (file : RemoteFile) (bytes : List UInt8) (session : Session) (s : State) :
    State :=
  if file.client.overruns s.world.clock { bytes } session then s.halt noDeadline else s

/-- Copy bytes over a connection in a session of its own. -/
def RemoteFile.send (file : RemoteFile) (copier : Copier) (path : String) (bytes : List UInt8)
    (connection : Connection) : Action := fun s =>
  match connection.openSession with
  | (.error e, connection) => (.error (sessionRefused e), s.connect connection)
  | (.ok session, connection) =>
    let copied := copier path bytes session connection
    let s := file.await bytes session s
    let s := if copied.timedOut then s.log .warn (file.client.timeoutNotice path) else s
    let session := copied.session.close.2
    (copied.result.mapError .scp, s.connect (copied.connection.keep session))

/-- Write a file on another host with a copier. -/
def RemoteFile.write (file : RemoteFile) (copier : Copier) (ctx : Context) (stepName : String) :
    Action := fun s =>
  if file.file = "" then (.error (fileNeeded stepName), s)
  else if file.permissions = "" then
    (.error (.definition ("filemode permissions in " ++ Text.quoted stepName ++ " are empty")), s)
  else
    match s.world.connection with
    | none => (.error (.definition "scp_writefile: no connection configured"), s)
    | some connection =>
      let path := interpolate s.vars file.file
      match file.bytes ctx s with
      | .error e => (.error e, s)
      | .ok bytes => file.send copier path bytes connection s

/-- Write a file on another host. -/
def remoteFileAction (ctx : Context) (stepName : String) (file : RemoteFile) : Action :=
  file.write file.copier ctx stepName

end Runbook
