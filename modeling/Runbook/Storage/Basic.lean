import Runbook.Storage.Disk
import Runbook.Storage.Memory
/-!
# File systems

Through which files a step reads and writes:

* `Files` — the files that exist: in memory and on the disk;
* `FileSystem` — a way to them: the memory, the disk, or one directory of the disk;
* `resolve` — a path under a directory, which drops its leading slashes;
* `FileSystem.exists?`, `FileSystem.read`, `FileSystem.write` — access by path.
-/

namespace Runbook

/-- The files that exist. -/
structure Files where
  memory : MemoryStore := {}
  disk : Disk := {}
deriving DecidableEq, Repr

/-- A way to files. -/
inductive FileSystem where
  | memory
  | disk
  | directory (root : String)
deriving DecidableEq, Repr

namespace FileSystem

/-- A path under a directory. -/
def resolve (root path : String) : String :=
  let inside := String.ofList (path.toList.dropWhile (· == '/'))
  if root.isEmpty then inside
  else if root.toList.getLast? = some '/' then root ++ inside
  else root ++ "/" ++ inside

/-- Whether a file exists. -/
def exists? (fs : FileSystem) (files : Files) (path : String) : Except IoError Bool :=
  match fs with
  | .memory => files.memory.exists? path
  | .disk => files.disk.exists? path
  | .directory root => files.disk.exists? (resolve root path)

/-- The contents of a file. -/
def read (fs : FileSystem) (files : Files) (path : String) : Except IoError (List UInt8) :=
  match fs with
  | .memory => files.memory.read path
  | .disk => files.disk.read path
  | .directory root => files.disk.read (resolve root path)

/-- Create or replace a file. -/
def write (fs : FileSystem) (files : Files) (path : String) (bytes : List UInt8) :
    Except IoError Files :=
  match fs with
  | .memory => (files.memory.write path bytes).map fun memory => { files with memory }
  | .disk => (files.disk.write path bytes).map fun disk => { files with disk }
  | .directory root =>
    (files.disk.write (resolve root path) bytes).map fun disk => { files with disk }

end FileSystem

end Runbook
