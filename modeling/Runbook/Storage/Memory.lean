import Runbook.Storage.Error
/-!
# Files in memory

A store of files by path. Paths are compared as texts: there are no directories, and a leading slash
makes a difference.

* `MemoryStore.read`, `MemoryStore.write`, `MemoryStore.exists?` — access by path;
* `faults` — paths to which every access is refused.
-/

namespace Runbook

/-- Files by path, the paths to which access is refused, with the reason, and the paths that have
been written to. -/
structure MemoryStore where
  files : List (String × List UInt8) := []
  faults : List (String × String) := []
  written : List String := []
deriving DecidableEq, Repr

namespace MemoryStore

/-- The contents of a file. -/
def get? (store : MemoryStore) (path : String) : Option (List UInt8) :=
  store.files.lookup path

/-- Fail if access to a path is refused. -/
def guardPath (store : MemoryStore) (path : String) : Except IoError Unit :=
  match store.faults.lookup path with
  | some message => .error ⟨.permissionDenied, message⟩
  | none => .ok ()

/-- Whether a file exists. -/
def exists? (store : MemoryStore) (path : String) : Except IoError Bool := do
  store.guardPath path
  pure (store.get? path).isSome

/-- The contents of a file, which has to exist. -/
def read (store : MemoryStore) (path : String) : Except IoError (List UInt8) := do
  store.guardPath path
  match store.get? path with
  | some bytes => pure bytes
  | none => throw ⟨.notFound, "file does not exist: " ++ path⟩

/-- Replace an entry, or add it at the end. -/
def put (path : String) (bytes : List UInt8) :
    List (String × List UInt8) → List (String × List UInt8)
  | [] => [(path, bytes)]
  | (p, b) :: rest => if p = path then (path, bytes) :: rest else (p, b) :: put path bytes rest

/-- Create or replace a file. -/
def insert (store : MemoryStore) (path : String) (bytes : List UInt8) : MemoryStore :=
  { store with files := put path bytes store.files, written := store.written ++ [path] }

/-- Create or replace a file, unless access is refused. -/
def write (store : MemoryStore) (path : String) (bytes : List UInt8) :
    Except IoError MemoryStore := do
  store.guardPath path
  pure (store.insert path bytes)

theorem lookup_put_self (path : String) (bytes : List UInt8)
    (files : List (String × List UInt8)) : (put path bytes files).lookup path = some bytes := by
  induction files with
  | nil => simp [put]
  | cons entry rest ih =>
    obtain ⟨p, b⟩ := entry
    by_cases h : p = path
    · simp [put, h]
    · have : (path == p) = false := by simpa using fun e => h e.symm
      simp [put, h, List.lookup_cons, this, ih]

theorem lookup_put_of_ne {path other : String} (h : other ≠ path) (bytes : List UInt8)
    (files : List (String × List UInt8)) :
    (put path bytes files).lookup other = files.lookup other := by
  have hne : (other == path) = false := by simpa using h
  induction files with
  | nil => simp [put, List.lookup_cons, hne]
  | cons entry rest ih =>
    obtain ⟨p, b⟩ := entry
    by_cases hp : p = path
    · simp [put, hp, List.lookup_cons, hne]
    · simp only [put, hp, ↓reduceIte, List.lookup_cons]
      split <;> simp [ih]

/-- A file that was written is read back. -/
theorem get?_insert_self (store : MemoryStore) (path : String) (bytes : List UInt8) :
    (store.insert path bytes).get? path = some bytes :=
  lookup_put_self path bytes store.files

/-- The other files stay as they are. -/
theorem get?_insert_of_ne {path other : String} (h : other ≠ path) (store : MemoryStore)
    (bytes : List UInt8) : (store.insert path bytes).get? other = store.get? other :=
  lookup_put_of_ne h bytes store.files

end MemoryStore

end Runbook
