import Runbook.Output
import Runbook.Shell.Syntax
import Runbook.Shell.Utility
/-!
# Running shell scripts

* `Machine` — the variables of a shell, the status of its last command, what it has written so
  far, how it ended, and the disk;
* `Plumbing` — where a command reads from and writes to;
* `fields` — the words that a word expands to;
* `Command.run` — the effect of a command;
* `runScript` — the effect of a script.

A command does nothing once the shell has ended.
-/

namespace Runbook.Shell

/-- How a process ended. -/
inductive Ending where
  | exited (status : Nat)
  | killed (signal : Nat)
deriving DecidableEq, Repr

/-- Where a piece of output goes. -/
inductive Channel where
  | stream (stream : Stream)
  | pipe
  | nowhere
  | file (path : String)
deriving DecidableEq, Repr

/-- The state of a shell. -/
structure Machine where
  bindings : List (String × String) := []
  parameters : List String := []
  status : Nat := 0
  written : List (Channel × List UInt8) := []
  ending : Option Ending := none
  strict : Bool := false
  disk : Disk

/-- Where a command reads from and writes to. -/
structure Plumbing where
  input : List UInt8 := []
  output : Channel := .stream .stdout
  errors : Channel := .stream .stderr

/-- The number of the process of a shell. -/
def processNumber : String := "4242"

namespace Machine

/-- Write a piece. -/
def emit (channel : Channel) (bytes : List UInt8) (m : Machine) : Machine :=
  match channel with
  | .nowhere => m
  | .file path =>
    match m.disk.read path with
    | .ok old =>
      match m.disk.write path (old ++ bytes) with
      | .ok disk => { m with disk }
      | .error _ => m
    | .error _ => m
  | channel => if bytes.isEmpty then m else { m with written := m.written ++ [(channel, bytes)] }

/-- Write a message of the shell, and set the status. -/
def complain (plumbing : Plumbing) (message : String) (status : Nat) (m : Machine) : Machine :=
  { m.emit plumbing.errors (lineBytes ("sh: 1: " ++ message)) with status }

/-- Set a variable. -/
def set (name value : String) (m : Machine) : Machine :=
  { m with bindings := (name, value) :: m.bindings.filter (·.1 != name) }

/-- The value of a parameter. -/
def value (m : Machine) (name : String) : String :=
  if name = "?" then Text.natText m.status
  else if name = "$" then processNumber
  else if name = "#" then Text.natText (m.parameters.length - 1)
  else if name.toList.all Char.isDigit then
    (m.parameters[(takeDecimal name.toList).1]?).getD ""
  else (m.bindings.lookup name).getD ""

/-- The value of a parameter or its fallback. -/
def valueOr (m : Machine) (name : String) (fallback : Option String) : String :=
  let v := m.value name
  match fallback with
  | some text => if v.isEmpty then text else v
  | none => v

end Machine

/-! ### Expansion -/

/-- The text of a word that is not split. -/
def expand (m : Machine) (word : Word) : String :=
  word.foldl (fun text piece =>
    text ++ match piece with
      | .quoted cs | .plain cs => String.ofList cs
      | .parameter name _ fallback => m.valueOr name fallback) ""

/-- A field break. -/
def isBreak (c : Char) : Bool :=
  c == ' ' || c == '\t' || c == '\n'

/-- Add unquoted text to fields; the current field comes last and may not have started. -/
def addSplit : (fields : List String × Option (List Char)) → List Char →
    List String × Option (List Char)
  | fields, [] => fields
  | (done, current), c :: cs =>
    if isBreak c then
      match current with
      | some text => addSplit (done ++ [String.ofList text], none) cs
      | none => addSplit (done, none) cs
    else addSplit (done, some (current.getD [] ++ [c])) cs

/-- The words that a word expands to. -/
def fields (m : Machine) (word : Word) : List String :=
  let add (acc : List String × Option (List Char)) (piece : Piece) :
      List String × Option (List Char) :=
    match piece with
    | .quoted cs | .plain cs => (acc.1, some (acc.2.getD [] ++ cs))
    | .parameter name true fallback =>
      (acc.1, some (acc.2.getD [] ++ (m.valueOr name fallback).toList))
    | .parameter name false fallback => addSplit acc (m.valueOr name fallback).toList
  let (done, current) := word.foldl add ([], none)
  done ++ (current.map String.ofList).toList

/-! ### Commands -/

/-- Apply a redirection; none if its file cannot be opened. -/
def redirect (m : Machine) (plumbing : Plumbing) (r : Redirect) :
    Machine × Option Plumbing :=
  let send (m : Machine) (channel : Channel) : Machine × Option Plumbing :=
    (m, some (if r.1 = 2 then { plumbing with errors := channel }
      else { plumbing with output := channel }))
  match r.2 with
  | .stream 1 => send m plumbing.output
  | .stream 2 => send m plumbing.errors
  | .stream _ => (m, some plumbing)
  | .write word =>
    let path := expand m word
    if path = "/dev/null" then send m .nowhere
    else
      match m.disk.write path [] with
      | .ok disk => send { m with disk } (.file path)
      | .error _ =>
        (m.complain plumbing ("cannot create " ++ path ++ ": Directory nonexistent") 2, none)
  | .append word =>
    let path := expand m word
    if path = "/dev/null" then send m .nowhere
    else if (entryAt? m.disk path).isSome then send m (.file path)
    else
      match m.disk.write path [] with
      | .ok disk => send { m with disk } (.file path)
      | .error _ =>
        (m.complain plumbing ("cannot create " ++ path ++ ": Directory nonexistent") 2, none)
  | .read word =>
    let path := expand m word
    if path = "/dev/null" then (m, some { plumbing with input := [] })
    else
      match m.disk.read path with
      | .ok bytes => (m, some { plumbing with input := bytes })
      | .error _ => (m.complain plumbing ("cannot open " ++ path ++ ": No such file") 2, none)

/-- Apply redirections in order. -/
def redirectAll : Machine → Plumbing → List Redirect → Machine × Option Plumbing
  | m, plumbing, [] => (m, some plumbing)
  | m, plumbing, r :: rest =>
    match redirect m plumbing r with
    | (m, some plumbing) => redirectAll m plumbing rest
    | (m, none) => (m, none)

/-- A signal by its name or number. -/
def signal? (text : String) : Option Nat :=
  let names := [("HUP", 1), ("INT", 2), ("QUIT", 3), ("KILL", 9), ("TERM", 15)]
  match names.lookup (Text.replaceString text "SIG" "") with
  | some n => some n
  | none => (readInteger? text).map Int.toNat

/-- Send a signal; the only process is the shell. -/
def kill (words : List String) (m : Machine) : Machine :=
  let (signal, targets) := match words with
    | "-s" :: name :: rest => (signal? name, rest)
    | word :: rest =>
      match word.toList with
      | '-' :: name => (signal? (String.ofList name), rest)
      | _ => (some 15, words)
    | [] => (none, [])
  match signal with
  | some number =>
    if targets.contains processNumber then
      if number = 0 then { m with status := 0 } else { m with ending := some (.killed number) }
    else { m with status := 1 }
  | none => { m with status := 1 }

/-- End the shell. -/
def exit (plumbing : Plumbing) (words : List String) (m : Machine) : Machine :=
  match words with
  | [] => { m with ending := some (.exited m.status) }
  | word :: _ =>
    if word ≠ "" ∧ word.toList.all Char.isDigit then
      { m with ending := some (.exited ((takeDecimal word.toList).1 % 256)) }
    else
      { m.complain plumbing ("exit: Illegal number: " ++ word) 2 with ending := some (.exited 2) }

/-- Run a command by its name. -/
def invoke (plumbing : Plumbing) (name : String) (words : List String) (m : Machine) : Machine :=
  match name with
  | ":" => { m with status := 0 }
  | "exit" => exit plumbing words m
  | "kill" => kill words m
  | "set" => { m with strict := m.strict || words.contains "-e", status := 0 }
  | "export" =>
    let one (m : Machine) (word : String) : Machine :=
      match Text.splitAtFirst? (· == '=') word.toList with
      | some (name, value) => m.set (String.ofList name) (String.ofList value)
      | none => m
    { words.foldl one m with status := 0 }
  | "unset" =>
    { m with bindings := m.bindings.filter fun v => !words.contains v.1, status := 0 }
  | "echo" => { m.emit plumbing.output (echoBuiltin words) with status := 0 }
  | name =>
    let base := if name.startsWith "/bin/" || name.startsWith "/usr/bin/" then
        String.ofList ((name.toList.reverse.takeWhile (· != '/')).reverse)
      else name
    match utility? base words m.bindings plumbing.input m.disk with
    | some done =>
      let m := { m with disk := done.disk }
      { (m.emit plumbing.output done.output).emit plumbing.errors done.errors with
        status := done.status }
    | none => m.complain plumbing (name ++ ": not found") 127

/-- End a strict shell whose command has failed. -/
def heed (guarded : Bool) (m : Machine) : Machine :=
  if m.strict && !guarded && m.status != 0 && m.ending.isNone then
    { m with ending := some (.exited m.status) }
  else m

/-- Assign variables one after the other. -/
def assign : Machine → List (String × Word) → Machine
  | m, [] => m
  | m, (name, word) :: rest => assign (m.set name (expand m word)) rest

/-- A simple command. -/
def runSimple (plumbing : Plumbing) (assignments : List (String × Word)) (words : List Word)
    (redirects : List Redirect) (m : Machine) : Machine :=
  let expanded := words.flatMap (fields m)
  match redirectAll m plumbing redirects with
  | (m, none) => m
  | (m, some plumbing) =>
    match expanded with
    | [] => { assign m assignments with status := 0 }
    | name :: words =>
      let outer := m.bindings
      let m := invoke plumbing name words (assign m assignments)
      if assignments.isEmpty then m else { m with bindings := outer }

/-- What is left of a subshell: its output, status and disk, and the signal that killed it. -/
def leaveSubshell (outer inner : Machine) : Machine :=
  let m := { outer with written := inner.written, disk := inner.disk, status := inner.status }
  match inner.ending with
  | some (.exited status) => { m with status }
  | some (.killed signal) => { m with ending := some (.killed signal) }
  | none => m

/-- The effect of a command; `guarded` tells whether its failure is looked at. -/
def Command.run : Command → (guarded : Bool) → Plumbing → Machine → Machine
  | .skip, _, _, m => m
  | .simple assignments words redirects, guarded, plumbing, m =>
    if m.ending.isSome then m else heed guarded (runSimple plumbing assignments words redirects m)
  | .both first second, guarded, plumbing, m =>
    second.run guarded plumbing (first.run guarded plumbing m)
  | .andThen first second, guarded, plumbing, m =>
    let m := first.run true plumbing m
    if m.ending.isSome || m.status != 0 then m else second.run guarded plumbing m
  | .orElse first second, guarded, plumbing, m =>
    let m := first.run true plumbing m
    if m.ending.isSome || m.status == 0 then m else second.run guarded plumbing m
  | .negate command, _, plumbing, m =>
    let m := command.run true plumbing m
    if m.ending.isSome then m else { m with status := if m.status = 0 then 1 else 0 }
  | .branch condition yes no, guarded, plumbing, m =>
    let m := condition.run true plumbing m
    if m.ending.isSome then m
    else if m.status = 0 then yes.run guarded plumbing m
    else no.run guarded plumbing { m with status := 0 }
  | .forEach name words body, guarded, plumbing, m =>
    (words.flatMap (fields m)).foldl
      (fun m word => if m.ending.isSome then m else body.run guarded plumbing (m.set name word)) m
  | .group body redirects, guarded, plumbing, m =>
    match redirectAll m plumbing redirects with
    | (m, none) => m
    | (m, some plumbing) => body.run guarded plumbing m
  | .subshell body redirects, guarded, plumbing, m =>
    match redirectAll m plumbing redirects with
    | (m, none) => m
    | (m, some plumbing) => leaveSubshell m (body.run guarded plumbing m)
  | .pipe first second, guarded, plumbing, m =>
    let before := leaveSubshell m (first.run true { plumbing with output := .pipe } m)
    let input := (before.written.filter (·.1 = .pipe)).flatMap Prod.snd
    let m := { before with written := before.written.filter (·.1 ≠ .pipe) }
    leaveSubshell m (second.run guarded { plumbing with input } m)

/-- How a shell ended. -/
def Machine.finish (m : Machine) : Ending :=
  m.ending.getD (.exited m.status)

/-- The effect of a script. -/
def runScript (script : String) (m : Machine) : Machine :=
  match Command.ofScript? script.toList with
  | some command => command.run false {} m
  | none =>
    let m := m.complain {} "Syntax error: end of file unexpected" 2
    { m with ending := some (.exited 2) }

end Runbook.Shell
