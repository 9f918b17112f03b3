import Runbook.Template.Basic
import Runbook.Template.ExprReader
import Runbook.Value.Basic
import Runbook.Value.Text
/-!
# References

How a reference finds its value:

* `pathParts` — the parts of a dotted path, where a part between quotes may hold dots;
* `Value.follow?` — the value at the end of a path;
* `Frame` — what a loop, a macro or the template itself declares; `Frame.find?` looks into it;
* `Frames.find?` — through the frames from the innermost one, then in the namespace;
* `Frames.resolve?` — a written reference with subscripts; a subscript that is neither a number nor
  a string between single or double quotes is itself a reference and is replaced by its value.
-/

namespace Runbook.Template

open Runbook.Text

/-! ### Dotted paths -/

/-- Split state: which quotes are open and whether a backslash precedes. -/
structure SplitState where
  single : Bool := false
  double : Bool := false
  escaped : Bool := false

/-- Finish a part, which is dropped when it is empty. -/
def closePart (part : List Char) (parts : List (List Char)) : List (List Char) :=
  match part with
  | [] => parts
  | part => part.reverse :: parts

/-- Split a path at dots outside quotes and at quotes; `part` is the current part in reverse. -/
def splitPath (s : SplitState) (part : List Char) : List Char → List (List Char)
  | [] => closePart part []
  | c :: cs =>
    if c = '"' then
      if s.escaped then splitPath { s with escaped := false } (c :: part) cs
      else closePart part (splitPath { s with double := !s.double } [] cs)
    else if c = '\'' then
      if s.escaped then splitPath { s with escaped := false } (c :: part) cs
      else closePart part (splitPath { s with single := !s.single } [] cs)
    else if c = '\\' then splitPath { s with escaped := true } (c :: part) cs
    else if c = '.' ∧ !s.single ∧ !s.double ∧ !s.escaped then
      closePart part (splitPath s [] cs)
    else splitPath { s with escaped := false } (c :: part) cs

/-- A part with the two-character forms of the slash and the tilde undone. -/
def plainPart (part : List Char) : List Char :=
  replaceAll ['~', '0'] ['~'] (replaceAll ['~', '1'] ['/'] part)

/-- The parts of a dotted path. -/
def pathParts (path : List Char) : List (List Char) :=
  (splitPath {} [] path).map plainPart

/-- A list index: digits without a leading zero. -/
def index? (part : List Char) : Option Nat :=
  match part with
  | ['0'] => some 0
  | '0' :: _ => none
  | part => if part.all Char.isDigit then Decimal.natOfDigits? 10 part else none

/-- One step into a value. -/
def stepInto? (v : Value) (part : List Char) : Option Value :=
  match v with
  | .obj fields => Fields.get? (String.ofList part) fields
  | .arr items => (index? part).bind fun i => items[i]?
  | _ => none

/-- The value at the end of a path. -/
def followPath? (v : Value) (path : List Char) : Option Value :=
  (pathParts path).foldlM stepInto? v

/-! ### Frames -/

/-- How a loop body ended. -/
inductive Flow where
  | next
  | skip
  | leave
deriving DecidableEq

/-- The entry a loop is at. -/
structure Cursor where
  keyName : Option String
  itemName : String
  key : String
  item : Value
  position : Nat
  length : Nat

/-- What is declared on one level. -/
structure Frame where
  isMacro : Bool := false
  cursor : Option Cursor := none
  vars : Namespace := []

/-- The parts of a path before and behind its first dot. -/
def splitDot (path : List Char) : List Char × Option (List Char) :=
  match splitAtFirst? (· == '.') path with
  | some (head, tail) => (head, some tail)
  | none => (path, none)

/-- A declared variable at the front of a path. -/
def findDeclared? (vars : Namespace) (path : List Char) : Option Value :=
  match splitDot path with
  | (head, some tail) => (Fields.get? (String.ofList head) vars).bind (followPath? · tail)
  | (head, none) => Fields.get? (String.ofList head) vars

/-- A path into the state of a loop. -/
def Cursor.find? (c : Cursor) (path : List Char) : Option Value :=
  let name := String.ofList path
  if name = "loop.index" then some (.nat (c.position + 1))
  else if name = "loop.index0" then some (.nat c.position)
  else if name = "loop.first" then some (.bool (c.position == 0))
  else if name = "loop.last" then some (.bool (c.position + 1 == c.length))
  else if c.keyName = some name then some (.str c.key)
  else
    match splitDot path with
    | (head, some tail) =>
      if String.ofList head = c.itemName then followPath? c.item tail else none
    | (head, none) => if String.ofList head = c.itemName then some c.item else none

/-- A path into one frame: declared variables first, then the loop. -/
def Frame.find? (f : Frame) (path : List Char) : Option Value :=
  match findDeclared? f.vars path with
  | some v => some v
  | none => f.cursor.bind (·.find? path)

/-- The frames of a template, the innermost first. -/
abbrev Frames := List Frame

/-- A path without subscripts: through the frames, then in the namespace. A macro sees its own
frame and the namespace, but not the frames it is called from. -/
def Frames.find? (ns : Namespace) (path : List Char) : Frames → Option Value
  | [] => findDeclared? ns path
  | f :: rest =>
    match f.find? path with
    | some v => some v
    | none => if f.isMacro then findDeclared? ns path else Frames.find? ns path rest

/-- Declare a variable on the innermost level. -/
def Frames.declare (name : String) (v : Value) : Frames → Frames
  | [] => []
  | f :: rest => { f with vars := Fields.insert name v f.vars } :: rest

/-- Declare a variable on the innermost level that is no loop. -/
def Frames.declareGlobal (name : String) (v : Value) : Frames → Frames
  | [] => []
  | f :: rest =>
    if f.cursor.isSome then f :: declareGlobal name v rest
    else { f with vars := Fields.insert name v f.vars } :: rest

/-! ### Subscripts -/

/-- The text up to the bracket that closes the current one, and what follows it. -/
def insideBracket : (open_ : Nat) → List Char → List Char × List Char
  | _, [] => ([], [])
  | n, c :: cs =>
    if c = ']' then
      match n with
      | 0 => ([], cs)
      | n + 1 =>
        let (inner, rest) := insideBracket n cs
        (c :: inner, rest)
    else
      let (inner, rest) := insideBracket (if c = '[' then n + 1 else n) cs
      (c :: inner, rest)

/-- The subscripts that are references. -/
def subscripts : (fuel : Nat) → List Char → List (List Char)
  | 0, _ => []
  | _ + 1, [] => []
  | fuel + 1, c :: cs =>
    if c = '[' then
      match cs with
      | [] => []
      | d :: more =>
        if d = '"' ∨ d = '\'' then subscripts fuel more
        else
          let (inner, rest) := insideBracket (if d = '[' then 1 else 0) more
          let inner := d :: inner
          let digits := match inner with
            | '+' :: digits => digits
            | digits => digits
          if (Decimal.natOfDigits? 10 digits).any (· < Nat.pow 2 64) then subscripts fuel rest
          else inner :: subscripts fuel rest
    else subscripts fuel cs

/-- The value of a subscript as a part of a path. -/
def subscriptText? : Value → Option (List Char)
  | .str s => some ('"' :: (s.toList ++ ['"']))
  | .num (.int i) => some (intText i).toList
  | .num (.double d) => some (Decimal.data d).toList
  | _ => none

/-- Replace the first occurrence of `old` by `new`. -/
def replaceFirst (old new : List Char) : List Char → List Char
  | [] => []
  | c :: cs =>
    match dropStart? old (c :: cs) with
    | some rest => new ++ rest
    | none => c :: replaceFirst old new cs

/-- Write the remaining subscripts as parts of a dotted path. -/
def undoBrackets (path : List Char) : List Char :=
  let path := replaceAll ['/'] ['~', '1'] path
  let path := replaceAll ['[', '\''] ['.', '"'] path
  let path := replaceAll ['[', '"'] ['.', '"'] path
  let path := replaceAll ['['] ['.'] path
  let path := replaceAll ['\'', ']'] ['"'] path
  let path := replaceAll ['"', ']'] ['"'] path
  replaceAll [']'] [] path

/-- The value of a written reference. -/
def Frames.resolve? (ns : Namespace) (frames : Frames) : (fuel : Nat) → List Char → Option Value
  | 0, _ => none
  | fuel + 1, path =>
    if path.contains '[' then
      let full? := (subscripts path.length path).foldlM (m := Option) (fun full sub =>
        (Frames.resolve? ns frames fuel sub).bind fun v =>
          (subscriptText? v).map fun text =>
            replaceFirst ('[' :: (sub ++ [']'])) ('.' :: text) full) path
      full?.bind fun full => frames.find? ns (undoBrackets full)
    else frames.find? ns path

/-- The value of a written reference. -/
def Frames.lookup? (ns : Namespace) (frames : Frames) (path : List Char) : Option Value :=
  frames.resolve? ns (path.length + 1) path

end Runbook.Template
