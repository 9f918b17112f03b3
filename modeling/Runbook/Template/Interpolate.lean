import Runbook.Shell.Word
import Runbook.Template.Action.Scope
import Runbook.Template.Render
/-!
# Interpolation

Templates inside texts, filled in from a namespace:

* `readTag?`, `pieces` — a text cut into tags and the characters between them;
* `stripDots` — a tag of the template language, in which a reference may start with a dot;
* `normalize` — the whole text in the template language: tags in dot style change their form, one
  after the other, and all others lose their leading dots;
* `interpolate` — the text with its values.

Interpolation never fails: a text that is no template, or whose rendering fails, stays as it is.
-/

namespace Runbook.Template

open Runbook.Text

/-! ### Tags -/

/-- The text up to and including the first `stop`, and the text behind it. -/
def takeThrough? (stop : List Char) : List Char → Option (List Char × List Char)
  | [] => none
  | c :: cs =>
    match dropStart? stop (c :: cs) with
    | some rest => some (stop, rest)
    | none => (takeThrough? stop cs).map fun (taken, rest) => (c :: taken, rest)

/-- A tag at the front of a text, in double braces or between brace and percent sign. -/
def readTag? : List Char → Option (List Char × List Char)
  | '{' :: '{' :: rest =>
    (takeThrough? ['}', '}'] rest).map fun (tag, rest) => ('{' :: '{' :: tag, rest)
  | '{' :: '%' :: rest =>
    (takeThrough? ['%', '}'] rest).map fun (tag, rest) => ('{' :: '%' :: tag, rest)
  | _ => none

theorem takeThrough?_eq_some {stop cs taken rest : List Char}
    (h : takeThrough? stop cs = some (taken, rest)) : cs = taken ++ rest := by
  induction cs generalizing taken with
  | nil => simp [takeThrough?] at h
  | cons c cs ih =>
    rw [takeThrough?] at h
    split at h
    · next found hd =>
      obtain ⟨rfl, rfl⟩ := by simpa using h
      exact dropStart?_eq_some hd
    · obtain ⟨⟨t, r⟩, ht, he⟩ := Option.map_eq_some_iff.1 h
      obtain ⟨rfl, rfl⟩ := by simpa using he
      simp [ih ht]

theorem readTag?_eq_some {cs tag rest : List Char} (h : readTag? cs = some (tag, rest)) :
    cs = tag ++ rest ∧ tag ≠ [] := by
  unfold readTag? at h
  split at h
  · obtain ⟨⟨t, r⟩, ht, he⟩ := Option.map_eq_some_iff.1 h
    obtain ⟨rfl, rfl⟩ := by simpa using he
    simp [takeThrough?_eq_some ht]
  · obtain ⟨⟨t, r⟩, ht, he⟩ := Option.map_eq_some_iff.1 h
    obtain ⟨rfl, rfl⟩ := by simpa using he
    simp [takeThrough?_eq_some ht]
  · simp at h

/-- A piece of a text. -/
inductive Piece where
  | char (c : Char)
  | tag (text : List Char)
deriving DecidableEq, Repr

/-- The tags of a text, leftmost and shortest, and the characters between them. -/
def pieces (cs : List Char) : List Piece :=
  match cs with
  | [] => []
  | c :: rest =>
    match h : readTag? (c :: rest) with
    | some (tag, after) =>
      have : after.length < (c :: rest).length := by
        have ⟨he, hn⟩ := readTag?_eq_some h
        have := congrArg List.length he
        have := List.length_pos_iff.2 hn
        simp only [List.length_append] at *
        omega
      .tag tag :: pieces after
    | none => .char c :: pieces rest
termination_by cs.length
decreasing_by
  · exact this
  · exact Nat.lt_succ_self _

/-! ### Leading dots -/

/-- A character behind which a dot starts a reference. -/
def precedesDot (c : Char) : Bool :=
  isBlank c || "\x7b([|,=!<>+*/%-".toList.contains c

/-- Drop every dot that starts a reference; `ready` says that one may stand here. -/
def stripDots : (ready : Bool) → List Char → List Char
  | _, [] => []
  | ready, c :: rest =>
    if ready && c == '.' && rest.head?.any isIdentStart then stripDots false rest
    else c :: stripDots (precedesDot c) rest

/-! ### Whole texts -/

/-- The pieces in the template language. -/
def normalizePieces (s : Action.Scope) : List Piece → List Char
  | [] => []
  | .char c :: rest => c :: normalizePieces s rest
  | .tag tag :: rest =>
    match s.tag? tag with
    | some (text, s) => text ++ normalizePieces s rest
    | none => stripDots true tag ++ normalizePieces s rest

/-- A text in the template language; `filters` are the names that dot style may call. -/
def normalize (filters : List (List Char)) (cs : List Char) : List Char :=
  normalizePieces { filters } (pieces cs)

/-- A filter that a caller supplies: a function of a value and named arguments. -/
abbrev ValueFunction := Value → Named → Value

/-- Filters by name. -/
abbrev ValueFunctions := List (String × ValueFunction)

/-- The filter that quotes a value as one word of a shell: a string as it is, any other value as
its text. -/
def shellEscape : Filter := fun v _ =>
  let text := match v with
    | .str s => s
    | v => v.text
  some (.str (Shell.escapeString text))

/-- The filter with a name: supplied ones go before the others. -/
def filter? (functions : ValueFunctions) (name : String) : Option Filter :=
  match functions.lookup name with
  | some f => some fun v args => some (f v args)
  | none => if name = "shell_escape" then some shellEscape else Filter.builtin? name

/-- Whether a text holds the start of a tag or of a comment. -/
def looksLikeTemplate (cs : List Char) : Bool :=
  contains ['{', '{'] cs || contains ['{', '%'] cs || contains ['{', '#'] cs

/-- The text of a template, if it can be read and rendered. -/
def render? (functions : ValueFunctions) (vars : Namespace) (cs : List Char) :
    Option (List Char) :=
  let names := "shell_escape".toList :: functions.map fun f => f.1.toList
  (ofChars? (normalize names cs)).bind fun nodes =>
    renderTemplate?
      { vars := Fields.insert (String.ofList Action.root) (.obj vars) vars
        filter? := filter? functions }
      nodes

/-- A text with its values. -/
def interpolate (functions : ValueFunctions) (vars : Namespace) (text : String) : String :=
  if looksLikeTemplate text.toList then
    match render? functions vars text.toList with
    | some cs => String.ofList cs
    | none => text
  else text

/-- A value whose text is interpolated; values that are no strings stay as they are. -/
def interpolateValue (functions : ValueFunctions) (vars : Namespace) : Value → Value
  | .str s => .str (interpolate functions vars s)
  | v => v

end Runbook.Template
