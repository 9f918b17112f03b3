import Runbook.Text.Blank
/-!
# Tokens of YAML documents

* `Cursor` — the characters that are left, with the line and column they start at;
* `isBreak`, `isGap` — line breaks, and what may separate tokens;
* `Token` — the tokens, among them the starts and ends of blocks, which have no characters of their
  own.
-/

namespace Runbook.Yaml

/-- How a scalar is written. -/
inductive Style where
  | plain
  | quoted
  | block
deriving DecidableEq, Repr

/-- A token. -/
inductive Token where
  | version (major minor : Nat)
  | tagDirective (handle start : List Char)
  | documentStart
  | documentEnd
  | blockSequenceStart
  | blockMappingStart
  | blockEnd
  | flowSequenceStart
  | flowSequenceEnd
  | flowMappingStart
  | flowMappingEnd
  | blockEntry
  | flowEntry
  | key
  | value
  | alias (name : List Char)
  | anchor (name : List Char)
  | tag (handle suffix : List Char)
  | scalar (style : Style) (text : List Char)
  | streamEnd
deriving DecidableEq, Repr

/-! ### Characters -/

/-- Characters that a document may hold. -/
def isAllowed (c : Char) : Bool :=
  let n := c.toNat
  n == 9 || n == 10 || n == 13 || (0x20 ≤ n && n ≤ 0x7E) || n == 0x85
    || (0xA0 ≤ n && n ≤ 0xD7FF) || (0xE000 ≤ n && n ≤ 0xFFFD) || 0x10000 ≤ n

/-- A line break. -/
def isBreak (c : Char) : Bool :=
  c == '\n' || c == '\r' || c == '\u0085' || c == '\u2028' || c == '\u2029'

/-- A space or a tab. -/
def isGap (c : Char) : Bool :=
  c == ' ' || c == '\t'

/-- A character of a name. -/
def isNameChar (c : Char) : Bool :=
  c.isAlphanum || c == '_' || c == '-'

/-- Whether a text is at its end or at a line break. -/
def atLineEnd (cs : List Char) : Bool :=
  cs.head?.all isBreak

/-- Whether a text is at its end, at a line break or at a gap. -/
def atSpace (cs : List Char) : Bool :=
  cs.head?.all fun c => isBreak c || isGap c

/-- Whether a text starts with a mark of three characters that stands alone. -/
def atMark (mark : Char) : List Char → Bool
  | a :: b :: c :: rest => a == mark && b == mark && c == mark && atSpace rest
  | _ => false

/-! ### Positions -/

/-- What is left of a document. -/
structure Cursor where
  rest : List Char
  index : Nat := 0
  line : Nat := 0
  column : Nat := 0
deriving DecidableEq, Repr

namespace Cursor

/-- The next character. -/
def head? (c : Cursor) : Option Char :=
  c.rest.head?

/-- Behind the next character. -/
def skip (c : Cursor) : Cursor :=
  match c.rest with
  | [] => c
  | _ :: rest => { c with rest, index := c.index + 1, column := c.column + 1 }

/-- Behind the next characters. -/
def skipMany (c : Cursor) : Nat → Cursor
  | 0 => c
  | n + 1 => c.skip.skipMany n

/-- Behind the next line break, with the break as it counts in a text. -/
def readLine (c : Cursor) : List Char × Cursor :=
  match c.rest with
  | '\r' :: '\n' :: rest => (['\n'], { rest, index := c.index + 2, line := c.line + 1 })
  | b :: rest =>
    if b == '\u2028' || b == '\u2029' then
      ([b], { rest, index := c.index + 1, line := c.line + 1 })
    else if isBreak b then (['\n'], { rest, index := c.index + 1, line := c.line + 1 })
    else ([], c)
  | [] => ([], c)

/-- Behind the next line break. -/
def skipLine (c : Cursor) : Cursor :=
  c.readLine.2

/-- Behind the characters with a property. -/
def skipWhile (p : Char → Bool) (c : Cursor) : Cursor :=
  c.skipMany (c.rest.takeWhile p).length

/-- The characters with a property, and the cursor behind them. -/
def takeWhile (p : Char → Bool) (c : Cursor) : List Char × Cursor :=
  (c.rest.takeWhile p, c.skipWhile p)

/-- Behind a comment, if one starts here. -/
def skipComment (c : Cursor) : Cursor :=
  if c.head? = some '#' then c.skipWhile (fun ch => !isBreak ch) else c

/-- Whether a mark of the start or the end of a document stands here. -/
def atDocumentMark (c : Cursor) : Bool :=
  c.column == 0 && (atMark '-' c.rest || atMark '.' c.rest)

end Cursor

end Runbook.Yaml
