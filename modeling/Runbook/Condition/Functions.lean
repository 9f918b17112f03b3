import Runbook.Condition.Eval
import Runbook.Shell.Word
import Runbook.Storage.Basic
import Runbook.Version
/-!
# Supplied functions of conditions

* `textHelpers` — whether a file exists, the length of a text in bytes, and a text as one word of a
  shell;
* `versionHelpers` — comparison of two versions.

A function checks the number of its arguments before their types.
-/

namespace Runbook.Condition

/-- The only argument, which has to be a string. -/
def singleString (name : String) (args : List Value) : Except String String :=
  match args with
  | [.str s] => .ok s
  | [_] => .error (name ++ ": invalid argument type, expected string")
  | _ => .error (name ++ ": invalid number of arguments")

/-- Whether a file exists. -/
def fileExists (fs : FileSystem) (files : Files) : Helper := fun args => do
  let path ← singleString "file_exists" args
  match fs.exists? files path with
  | .ok found => pure (.bool found)
  | .error e => throw ("file_exists: " ++ e.message)

/-- The length of a text in bytes. -/
def stringLength : Helper := fun args => do
  let s ← singleString "strlen" args
  pure (.nat s.utf8ByteSize)

/-- A text as one word of a shell. -/
def escapeWord : Helper := fun args => do
  let s ← singleString "shell_escape" args
  pure (.str (Shell.escapeString s))

/-- The functions on texts and files. -/
def textHelpers (fs : FileSystem) (files : Files) : Helpers :=
  [("file_exists", fileExists fs files), ("strlen", stringLength), ("shell_escape", escapeWord)]

/-- An argument as a version. -/
def versionArg (name : String) (position : Nat) (arg : Value) : Except String Version :=
  let place := name ++ ": argument " ++ Text.natText position
  match arg with
  | .str s =>
    match Version.ofText? s with
    | some v => .ok v
    | none => .error (place ++ " must be a valid version")
  | _ => .error (place ++ " must be string")

/-- A comparison of two versions. -/
def versionHelper (name : String) (accept : Ordering → Bool) : Helper := fun args =>
  match args with
  | [a, b] => do
    let v ← versionArg name 1 a
    let w ← versionArg name 2 b
    pure (.bool (accept (v.compare w)))
  | _ => .error (name ++ ": invalid number of arguments")

/-- The comparisons of versions. -/
def versionHelpers : Helpers :=
  [("version_lt", (· == .lt)), ("version_lte", (· != .gt)), ("version_gt", (· == .gt)),
    ("version_gte", (· != .lt)), ("version_eq", (· == .eq))].map
      fun (name, accept) => (name, versionHelper name accept)

end Runbook.Condition
