import Runbook.Storage.Error
import Runbook.Text.Blank
/-!
# Files on a disk

A tree of directories and files, and paths in it:

* `Disk` — the entries by their components from the top, and the working directory;
* `Disk.walk` — a path component by component, where `.` stays, `..` goes up, and every other step
  needs a directory to start from;
* `Disk.read`, `Disk.write`, `Disk.exists?`, `Disk.makeDirectories` — access by path.

An entry's parents are directories of the disk; `write` creates a file only in a directory that
exists.
-/

namespace Runbook

/-- A path from the top of the disk. -/
abbrev Place := List String

/-- What stands at a place. -/
inductive Entry where
  | directory
  | file (bytes : List UInt8)
deriving DecidableEq, Repr

/-- The entries of a disk other than its top, and the working directory. -/
structure Disk where
  entries : List (Place × Entry) := []
  here : Place := []
deriving DecidableEq, Repr

namespace Disk

/-- The entry at a place; the top is a directory. -/
def entry? (d : Disk) (place : Place) : Option Entry :=
  if place = [] then some .directory else d.entries.lookup place

/-- Set the entry at a place. -/
def put (place : Place) (e : Entry) : List (Place × Entry) → List (Place × Entry)
  | [] => [(place, e)]
  | (p, f) :: rest => if p = place then (place, e) :: rest else (p, f) :: put place e rest

/-- The longest name of an entry, in bytes. -/
def maxName : Nat := 255

/-- The longest path, in bytes. -/
def maxPath : Nat := 4095

/-- Follow components from a place. -/
def walk (d : Disk) : (place : Place) → List String → Except IoError Place
  | place, [] => .ok place
  | place, name :: rest =>
    match d.entry? place with
    | none => .error .missing
    | some (.file _) => .error .notDirectory
    | some .directory =>
      if name = "" ∨ name = "." then d.walk place rest
      else if name = ".." then d.walk place.dropLast rest
      else if maxName < name.utf8ByteSize then .error .longName
      else if (d.entry? (place ++ [name])).isSome then d.walk (place ++ [name]) rest
      else .error .missing

/-- The components of a path, and the place where it starts. -/
def start (d : Disk) (path : String) : Place × List String :=
  let parts := (Text.splitBy (· == '/') path.toList).map String.ofList
  (if path.toList.head? = some '/' then [] else d.here, parts)

/-- Fail on a path that no operation takes. -/
def guardPath (path : String) : Except IoError Unit :=
  if path.toList.contains '\x00' then .error .nullInPath
  else if path.isEmpty then .error .missing
  else if maxPath < path.utf8ByteSize then .error .longName
  else .ok ()

/-- The place that a path names. -/
def locate (d : Disk) (path : String) : Except IoError Place := do
  guardPath path
  let (place, parts) := d.start path
  d.walk place parts

/-- Whether a path names an entry; only a missing entry gives a plain no. -/
def exists? (d : Disk) (path : String) : Except IoError Bool :=
  match d.locate path with
  | .ok _ => .ok true
  | .error e => if e.kind = .notFound then .ok false else .error e

/-- The contents of a file. -/
def read (d : Disk) (path : String) : Except IoError (List UInt8) := do
  let place ← d.locate path
  match d.entry? place with
  | some (.file bytes) => pure bytes
  | some .directory => throw .isDirectory
  | none => throw .missing

/-- Drop the empty components at the end, and tell whether there were any. -/
def dropTrailing (parts : List String) : List String × Bool :=
  let kept := (parts.reverse.dropWhile (· == "")).reverse
  (kept, kept.length < parts.length)

/-- Create or replace a file, whose directory has to exist. -/
def write (d : Disk) (path : String) (bytes : List UInt8) : Except IoError Disk := do
  guardPath path
  let (place, parts) := d.start path
  let (parts, slash) := dropTrailing parts
  match parts.getLast? with
  | none => throw .isDirectory
  | some name =>
    let parent ← d.walk place parts.dropLast
    match d.entry? parent with
    | some .directory =>
      if name = "." ∨ name = ".." then throw .isDirectory
      else if maxName < name.utf8ByteSize then throw .longName
      else
        let target := parent ++ [name]
        match d.entry? target with
        | some .directory => throw .isDirectory
        | some (.file _) =>
          if slash then throw .notDirectory
          else pure { d with entries := put target (.file bytes) d.entries }
        | none =>
          if slash then throw .isDirectory
          else pure { d with entries := put target (.file bytes) d.entries }
    | some (.file _) => throw .notDirectory
    | none => throw .missing

/-- Create the directories on the way along components. -/
def makeFrom (d : Disk) : Place → List String → Disk
  | _, [] => d
  | place, name :: rest =>
    if name = "" ∨ name = "." then d.makeFrom place rest
    else if name = ".." then d.makeFrom place.dropLast rest
    else
      let place := place ++ [name]
      let d := if (d.entry? place).isSome then d
        else { d with entries := put place .directory d.entries }
      d.makeFrom place rest

/-- Create a directory with its parents. -/
def makeDirectories (d : Disk) (path : String) : Disk :=
  let (place, parts) := d.start path
  d.makeFrom place parts

end Disk

end Runbook
