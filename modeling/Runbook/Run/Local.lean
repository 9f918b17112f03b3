import Runbook.Process
import Runbook.Run.Retry
import Runbook.Shell.Word
import Runbook.Template.Interpolate
import Runbook.Text.Quoted
/-!
# Steps that act on this host

The actions of the steps that assign variables, write files, pause, draw secrets and start
programs. Texts of these steps are templates over the variables of the run.

* `interpolate` — a template over the variables;
* `assignAction`, `sleepAction`, `writeFileAction` — the smallest steps;
* `drawSecret`, `passwordAction` — a secret of at least eight characters of a set;
* `Exec.attempt`, `execAction` — a program, whose output goes to the output of the run and, if a
  variable is named, into it.
-/

namespace Runbook

/-- A template over the variables of a run. -/
def interpolate (vars : Namespace) (text : String) : String :=
  Template.interpolate [] vars text

/-! ### Variables, pauses and files -/

/-- Set a variable to an interpolated value. -/
def assignAction (target : String) (value : Value) : Action := fun s =>
  if target = "" then (.error (.definition "variable: variable name cannot be empty"), s)
  else (.ok (), s.set target (Template.interpolateValue [] s.vars value))

/-- Pause. -/
def sleepAction (seconds : Nat) : Action := fun s =>
  (.ok (), (s.log .info ("Sleeping for " ++ Text.natText seconds ++ " seconds")).record
    (.sleep seconds))

/-- The error of a step that needs a file name and has none. -/
def fileNeeded (stepName : String) : StepError :=
  .definition ("filename in " ++ Text.quoted stepName ++ " is empty")

/-- Write an interpolated text to a file. -/
def writeFileAction (ctx : Context) (stepName file contents : String) : Action := fun s =>
  if file = "" then (.error (fileNeeded stepName), s)
  else
    let bytes := Text.Utf8.ofString (interpolate s.vars contents)
    let s := s.log .debug ("Writing to " ++ file)
    match ctx.fileSystem.write s.world.files file bytes with
    | .ok files => (.ok (), { s with world := { s.world with files } })
    | .error e => (.error (.io e), s)

/-! ### Secrets -/

/-- The characters of a secret if no others are given. -/
def defaultCharset : String :=
  "abcdefghijklmnopqrstuvwxyzABCDEFGHIJKLMNOPQRSTUVWXYZ0123456789"

/-- The least length of a secret. -/
def minSecretLength : Nat := 8

/-- The seed after a draw. -/
def nextSeed (seed : Nat) : Nat :=
  (seed * 6364136223846793005 + 1442695040888963407) % Nat.pow 2 64

/-- Draw characters of a set that is not empty. -/
def drawSecret (first : Char) (charset : List Char) : (length seed : Nat) → List Char × Nat
  | 0, seed => ([], seed)
  | length + 1, seed =>
    let seed := nextSeed seed
    let c := ((first :: charset)[(seed / Nat.pow 2 32) % (charset.length + 1)]?).getD first
    let (more, last) := drawSecret first charset length seed
    (c :: more, last)

/-- Draw a secret into a variable. -/
def passwordAction (p : Password) : Action := fun s =>
  if p.target = "" then (.error (.definition "password: variable name cannot be empty"), s)
  else
    let charset := if p.charset = "" then defaultCharset else p.charset
    match charset.toList with
    | [] => (.ok (), s.set p.target (.str ""))
    | first :: rest =>
      let (secret, seed) := drawSecret first rest (max p.length minSecretLength) s.world.seed
      (.ok (), { s with world := { s.world with seed } }.set p.target
        (.str (String.ofList secret)))

/-! ### Programs -/

/-- An entry of an environment: a name and a value, or a name alone. -/
def environmentEntry (entry : String) : String × String :=
  match Text.splitAtFirst? (· == '=') entry.toList with
  | some (name, value) => (String.ofList name, String.ofList value)
  | none => (entry, "")

/-- The error of a step without a program. -/
def emptyCommand (givenName : String) : StepError :=
  .definition ("command " ++ Text.quoted givenName ++ " is empty")

/-- Send what a process has written to the output of a run, and to a copy if a variable wants
it. -/
def World.deliver (copied : Bool) (chunks : List Chunk) (w : World) : World :=
  let copy := if copied then some Sink.capture else none
  { w with
    buffers := Runbook.deliver (stepWriter .stdout copy) (stepWriter .stderr copy) chunks
      w.buffers }

/-- Empty the copy. -/
def World.clearCapture (w : World) : World :=
  { w with buffers := w.buffers.clear 2 }

/-- The text of the copy. -/
def World.captured (w : World) : String :=
  Text.Utf8.toStringLossy (Buffers.get 2 w.buffers)

/-- Deliver the output of a process, and set the variable for it if there is one. -/
def State.receive (target : String) (chunks : List Chunk) (s : State) : State :=
  if target = "" then { s with world := s.world.deliver false chunks }
  else
    let world := s.world.clearCapture.deliver true chunks
    { s with world := world.clearCapture }.set target (.str world.captured)

/-- Start a program once. -/
def Exec.attempt (exec : Exec) (givenName : String) : Action := fun s =>
  match exec.words.map (interpolate s.vars) with
  | [] => (.error (emptyCommand givenName), s)
  | program :: arguments =>
    let shown := "Executing: " ++ program ++ " " ++ Shell.commandLine arguments
    let s := s.log .info (Text.trimString shown)
    let process : Process :=
      { program, arguments, environment := exec.environment.reverse.map environmentEntry }
    match s.world.programs process s.world.files.disk with
    | .error e => (.error (.io e), s)
    | .ok finished =>
      let files := { s.world.files with disk := finished.disk }
      let s := { s with world := { s.world with files } }.receive exec.target finished.chunks
      match finished.status with
      | some 0 => (.ok (), s)
      | some status => (.error (.exit (status : Int)), s)
      | none => (.error (.exit (-1)), s)

/-- Start a program under its policy. -/
def execAction (ctx : Context) (stepName givenName : String) (exec : Exec) : Action :=
  exec.retry.run ctx stepName fun _ => exec.attempt givenName

end Runbook
