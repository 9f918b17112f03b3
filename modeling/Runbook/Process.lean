import Runbook.Shell.Run
import Runbook.Storage.Error
/-!
# Local processes

* `Process` — a program with its arguments and the variables added to its environment;
* `Finished` — what a process has written, how it ended, and the disk it leaves;
* `Process.run` — the effect of a process, or why it does not start.

The programs are those of `Shell.utility?` and the shell itself; any other name is not found.
-/

namespace Runbook

/-- A program to start. -/
structure Process where
  program : String
  arguments : List String := []
  environment : List (String × String) := []
deriving DecidableEq, Repr

/-- A process that ended: its pieces of output in order, its status, and the disk it leaves; a
process that was killed has no status. -/
structure Finished where
  chunks : List Chunk := []
  status : Option Nat := some 0
  disk : Disk

namespace Process

/-- The directories in which programs stand. -/
def programDirectories : List String :=
  ["/bin/", "/usr/bin/"]

/-- The name under which a program is known; none if it has none. -/
def knownName? (program : String) : Option String :=
  if program.toList.contains '/' then
    programDirectories.findSome? fun d =>
      (Text.dropStart? d.toList program.toList).map String.ofList
  else some program

/-- Why a program that is not known does not start. -/
def startError (program : String) (disk : Disk) : IoError :=
  if program = "." ∨ program = ".." then .denied
  else if program.toList.contains '/' ∧ (Shell.entryAt? disk program).isSome then .denied
  else .missing

/-- The arguments of a shell: whether it is strict, its script, and its parameters. -/
def shellArguments (strict : Bool) : List String → Bool × Option String × List String
  | [] => (strict, none, [])
  | word :: rest =>
    match word.toList with
    | '-' :: c :: cs =>
      let letters := c :: cs
      let strict := strict || letters.contains 'e'
      if letters.contains 'c' then
        match rest with
        | [] => (strict, none, [])
        | script :: parameters =>
          (strict, some script, if parameters.isEmpty then ["sh"] else parameters)
      else shellArguments strict rest
    | _ => (strict, none, word :: rest)

/-- The pieces that a shell has written to the streams of its process. -/
def streamChunks (written : List (Shell.Channel × List UInt8)) : List Chunk :=
  written.filterMap fun w =>
    match w.1 with
    | .stream stream => some (stream, w.2)
    | _ => none

/-- The effect of a shell. -/
def runShell (p : Process) (disk : Disk) : Finished :=
  let start (strict : Bool) (parameters : List String) : Shell.Machine :=
    { bindings := p.environment, parameters, strict, disk }
  let finish (m : Shell.Machine) : Finished :=
    { chunks := streamChunks m.written, disk := m.disk
      status := match m.finish with
        | .exited status => some status
        | .killed _ => none }
  match shellArguments false p.arguments with
  | (strict, some script, parameters) => finish (Shell.runScript script (start strict parameters))
  | (_, none, []) => { disk }
  | (strict, none, path :: parameters) =>
    match (disk.read path).toOption.bind Text.Utf8.toString? with
    | some script => finish (Shell.runScript script (start strict (path :: parameters)))
    | none =>
      { chunks := [(.stderr, Shell.lineBytes ("sh: 0: cannot open " ++ path ++ ": No such file"))]
        status := some 2, disk }

/-- The pieces of one program: its output before its errors. -/
def ofDone (done : Shell.Done) : Finished :=
  { chunks := [(Stream.stdout, done.output), (.stderr, done.errors)].filter fun c => !c.2.isEmpty
    status := some done.status, disk := done.disk }

/-- The effect of a process. -/
def run (p : Process) (disk : Disk) : Except IoError Finished :=
  let texts := p.program :: p.arguments ++ p.environment.flatMap fun (k, v) => [k, v]
  if texts.any fun t => t.toList.contains '\x00' then .error .nullInArgument
  else
    match knownName? p.program with
    | none => .error (startError p.program disk)
    | some name =>
      if name = "sh" ∨ name = "dash" ∨ name = "bash" then .ok (runShell p disk)
      else
        match Shell.utility? name p.arguments p.environment [] disk with
        | some done => .ok (ofDone done)
        | none => .error (startError p.program disk)

end Process

end Runbook
