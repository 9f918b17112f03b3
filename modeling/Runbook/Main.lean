import Runbook.CommandLine.Run
/-!
# The program

Runs a command line against the files of this host: the files below the current directory are read
before the run, and those that the run has changed are written after it.

The programs of its world are those of `Process.run`.
-/

namespace Runbook.Program

/-- How deep directories are read. -/
def readDepth : Nat := 16

/-- Read a file or a directory into a disk; what cannot be read is left out. -/
def readEntry : (depth : Nat) → Place → IO.FS.DirEntry → Disk → IO Disk
  | 0, _, _, disk => pure disk
  | depth + 1, place, entry, disk => do
    let place := place ++ [entry.fileName]
    try
      if ← entry.path.isDir then
        let disk := { disk with entries := Disk.put place .directory disk.entries }
        (← entry.path.readDir).foldlM (fun disk entry => readEntry depth place entry disk) disk
      else
        let bytes ← IO.FS.readBinFile entry.path
        pure { disk with entries := Disk.put place (.file bytes.toList) disk.entries }
    catch _ => pure disk

/-- The disk of this host, as far as it lies below the current directory. -/
def readDisk : IO Disk := do
  let current ← IO.currentDir
  let place := (Text.splitBy (· == '/') (toString current).toList).map String.ofList
  let place := place.filter (· ≠ "")
  let disk := (Disk.makeDirectories {} (toString current))
  let disk := { disk with here := place }
  (← current.readDir).foldlM (fun disk entry => readEntry readDepth place entry disk) disk

/-- The path of a place. -/
def pathOf (place : Place) : String :=
  "/" ++ String.intercalate "/" place

/-- Write the files that differ between two disks. -/
def writeDisk (before after : Disk) : IO Unit := do
  for (place, entry) in after.entries do
    match entry with
    | .directory => pure ()
    | .file bytes =>
      if before.entry? place ≠ some (.file bytes) then
        IO.FS.writeBinFile (pathOf place) (ByteArray.mk bytes.toArray)

end Runbook.Program

/-- Run the command line. -/
def main (arguments : List String) : IO UInt32 := do
  let disk ← Runbook.Program.readDisk
  let seed ← IO.rand 0 (Nat.pow 2 62)
  let outcome := Runbook.CommandLine.run arguments { files := { disk }, seed }
  Runbook.Program.writeDisk disk outcome.world.files.disk
  (← IO.getStderr).write (ByteArray.mk outcome.world.stderr.toArray)
  (← IO.getStdout).write (ByteArray.mk outcome.world.stdout.toArray)
  return outcome.code.toUInt32
