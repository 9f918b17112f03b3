import Runbook.Storage.Error
/-!
# Output

Where the output of a run goes:

* `Buffers` — byte lists by number, with `get`, `append` and `clear`;
* `Sink` — a buffer, or a sink that takes nothing;
* `Writer` — several sinks that all get every piece, one after the other;
* `stepWriter` — the writer for one stream of a process: its sink, and a second one that keeps a
  copy if it is wanted;
* `deliver` — sends the pieces of both streams of a process to their writers, in order.

A writer stops at its first sink that fails; the sinks before it have the piece.
-/

namespace Runbook

/-! ### Buffers -/

/-- Byte lists by number; a number without an entry stands for an empty list. -/
abbrev Buffers := List (List UInt8)

namespace Buffers

/-- The bytes of a buffer. -/
def get (index : Nat) (buffers : Buffers) : List UInt8 :=
  (buffers[index]?).getD []

/-- Put bytes at the end of a buffer. -/
def append : (index : Nat) → (bytes : List UInt8) → Buffers → Buffers
  | 0, bytes, [] => [bytes]
  | 0, bytes, buffer :: rest => (buffer ++ bytes) :: rest
  | index + 1, bytes, [] => [] :: append index bytes []
  | index + 1, bytes, buffer :: rest => buffer :: append index bytes rest

/-- Empty a buffer. -/
def clear : (index : Nat) → Buffers → Buffers
  | _, [] => []
  | 0, _ :: rest => [] :: rest
  | index + 1, buffer :: rest => buffer :: clear index rest

@[simp] theorem get_nil (index : Nat) : get index [] = [] := by
  simp [get]

@[simp] theorem get_append_self (index : Nat) (bytes : List UInt8) (buffers : Buffers) :
    get index (append index bytes buffers) = get index buffers ++ bytes := by
  induction index generalizing buffers with
  | zero => cases buffers <;> simp [append, get]
  | succ index ih =>
    cases buffers with
    | nil => simpa [append, get] using ih []
    | cons buffer rest => simpa [append, get] using ih rest

theorem get_append_of_ne {index other : Nat} (h : other ≠ index) (bytes : List UInt8)
    (buffers : Buffers) : get other (append index bytes buffers) = get other buffers := by
  induction index generalizing buffers other with
  | zero =>
    obtain ⟨other, rfl⟩ := Nat.exists_eq_succ_of_ne_zero h
    cases buffers <;> simp [append, get]
  | succ index ih =>
    cases other with
    | zero => cases buffers <;> simp [append, get]
    | succ other =>
      have h : other ≠ index := fun e => h (by rw [e])
      cases buffers with
      | nil => simpa [append, get] using ih h []
      | cons buffer rest => simpa [append, get] using ih h rest

@[simp] theorem get_clear_self (index : Nat) (buffers : Buffers) :
    get index (clear index buffers) = [] := by
  induction index generalizing buffers with
  | zero => cases buffers <;> simp [clear, get]
  | succ index ih =>
    cases buffers with
    | nil => simp [clear]
    | cons buffer rest => simpa [clear, get] using ih rest

theorem get_clear_of_ne {index other : Nat} (h : other ≠ index) (buffers : Buffers) :
    get other (clear index buffers) = get other buffers := by
  induction index generalizing buffers other with
  | zero =>
    obtain ⟨other, rfl⟩ := Nat.exists_eq_succ_of_ne_zero h
    cases buffers <;> simp [clear, get]
  | succ index ih =>
    cases buffers with
    | nil => rfl
    | cons buffer rest =>
      cases other with
      | zero => simp [clear, get]
      | succ other =>
        have h : other ≠ index := fun e => h (by rw [e])
        simpa [clear, get] using ih h rest

end Buffers

/-! ### Sinks and writers -/

/-- Where a piece of output can go. -/
inductive Sink where
  | buffer (index : Nat)
  | broken
deriving DecidableEq, Repr

namespace Sink

/-- The sink of the standard output of a run. -/
def stdout : Sink := .buffer 0

/-- The sink of the standard error of a run. -/
def stderr : Sink := .buffer 1

/-- The sink that keeps a copy of what a process writes. -/
def capture : Sink := .buffer 2

/-- The error of a write to a broken sink. -/
def brokenWrite : IoError := ⟨.other, "sink is broken"⟩

/-- The error of a flush of a broken sink. -/
def brokenFlush : IoError := ⟨.other, "flush is broken"⟩

end Sink

/-- Several sinks that all get every piece. -/
abbrev Writer := List Sink

namespace Writer

/-- Write a piece to every sink up to the first one that fails; a broken sink still takes an empty
piece. -/
def write (bytes : List UInt8) : Writer → Buffers → Except IoError Unit × Buffers
  | [], buffers => (.ok (), buffers)
  | .buffer index :: rest, buffers => write bytes rest (buffers.append index bytes)
  | .broken :: rest, buffers =>
    if bytes.isEmpty then write bytes rest buffers else (.error Sink.brokenWrite, buffers)

/-- Flush every sink up to the first one that fails. -/
def flush (writer : Writer) : Except IoError Unit :=
  if writer.contains .broken then .error Sink.brokenFlush else .ok ()

end Writer

/-- The writer for one stream of a process. -/
def stepWriter (sink : Sink) (capture : Option Sink) : Writer :=
  sink :: capture.toList

/-! ### Processes -/

/-- The output streams of a process. -/
inductive Stream where
  | stdout
  | stderr
deriving DecidableEq, Repr

/-- A piece that a process writes to one of its streams. -/
abbrev Chunk := Stream × List UInt8

/-- The bytes of one stream. -/
def bytesOn (stream : Stream) (chunks : List Chunk) : List UInt8 :=
  (chunks.filter (·.1 = stream)).flatMap Prod.snd

/-- Send pieces to the writers of their streams. -/
def deliver (stdout stderr : Writer) : List Chunk → Buffers → Buffers
  | [], buffers => buffers
  | (stream, bytes) :: rest, buffers =>
    let writer := match stream with
      | .stdout => stdout
      | .stderr => stderr
    deliver stdout stderr rest (writer.write bytes buffers).2

end Runbook
