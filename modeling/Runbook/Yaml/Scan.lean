import Runbook.Yaml.Scalar
/-!
# From characters to tokens

* `SimpleKey` — a place where a key may have started, known only when its colon is found;
* `Scan` — the tokens found so far, the open blocks, and the places where keys may have started;
* `Scan.next` — one more token;
* `scan?` — all tokens of a document stream.

A block opens where a line is indented deeper than the blocks around it, and closes where a line is
indented less. A key stands on one line and is at most 1024 characters away from its colon.
-/

namespace Runbook.Yaml

/-- A place where a key may have started: how many tokens stood before it, and where it is; a
required one starts a line of a block. -/
structure SimpleKey where
  tokens : Nat
  index : Nat
  line : Nat
  column : Nat
  required : Bool
deriving DecidableEq, Repr

/-- The state of a scan. Tokens are kept in reverse; `indent` and `indents` are the indentations of
the open blocks, the innermost first; `keys` has an entry for every open flow collection and one
for the blocks. -/
structure Scan where
  cursor : Cursor
  tokens : List Token := []
  count : Nat := 0
  indents : List Nat := []
  flow : Nat := 0
  keyAllowed : Bool := true
  keys : List (Option SimpleKey) := [none]

namespace Scan

/-- The indentation of the innermost block. -/
def indent? (s : Scan) : Option Nat :=
  s.indents.head?

/-- The column from which a line belongs to a new block. -/
def inner (s : Scan) : Nat :=
  match s.indent? with
  | some n => n + 1
  | none => 0

/-- Whether a flow collection is open. -/
def inFlow (s : Scan) : Bool :=
  0 < s.flow

/-- Add a token. -/
def push (t : Token) (s : Scan) : Scan :=
  { s with tokens := t :: s.tokens, count := s.count + 1 }

/-- Add a token behind the first `n` ones. -/
def pushAt (n : Nat) (t : Token) (s : Scan) : Scan :=
  let later := s.count - n
  { s with tokens := s.tokens.take later ++ t :: s.tokens.drop later, count := s.count + 1 }

/-- Move the cursor. -/
def moveTo (c : Cursor) (s : Scan) : Scan :=
  { s with cursor := c }

/-- Allow or forbid that a key starts here. -/
def allowKey (allowed : Bool) (s : Scan) : Scan :=
  { s with keyAllowed := allowed }

/-! ### Keys -/

/-- Whether the colon of a key may still follow. -/
def isAlive (c : Cursor) (key : SimpleKey) : Bool :=
  key.line == c.line && c.index ≤ key.index + 1024

/-- Forget the keys whose colon is overdue; a required one must have it. -/
def dropStaleKeys (c : Cursor) : List (Option SimpleKey) → Option (List (Option SimpleKey))
  | [] => some []
  | none :: rest => (dropStaleKeys c rest).map (none :: ·)
  | some key :: rest =>
    if isAlive c key then (dropStaleKeys c rest).map (some key :: ·)
    else if key.required then none
    else (dropStaleKeys c rest).map (none :: ·)

/-- Forget the innermost key; a required one must have its colon. -/
def removeKey (s : Scan) : Option Scan :=
  match s.keys with
  | some key :: rest => if key.required then none else some { s with keys := none :: rest }
  | _ => some s

/-- Remember that a key may start here. -/
def saveKey (s : Scan) : Option Scan :=
  if s.keyAllowed then
    s.removeKey.map fun s =>
      let c := s.cursor
      let key : SimpleKey :=
        { tokens := s.count, index := c.index, line := c.line, column := c.column
          required := !s.inFlow && s.indent? == some c.column }
      { s with keys := some key :: s.keys.drop 1 }
  else some s

/-! ### Blocks -/

/-- Open a block at a column, unless one is open there. -/
def openBlock (column : Nat) (at_ : Option Nat) (t : Token) (s : Scan) : Scan :=
  if s.inFlow || column < s.inner then s
  else
    let s := { s with indents := column :: s.indents }
    match at_ with
    | some n => s.pushAt n t
    | none => s.push t

/-- Close the blocks that are indented deeper than a column. -/
def closeBlocks (column : Nat) : List Nat → Scan → Scan
  | [], s => s
  | n :: rest, s =>
    if column < n then closeBlocks column rest ({ s with indents := rest }.push .blockEnd) else s

/-- Close all blocks of a list. -/
def closeList : List Nat → Scan → Scan
  | [], s => s
  | _ :: rest, s => closeList rest ({ s with indents := rest }.push .blockEnd)

/-- Close all blocks, unless a flow collection is open. -/
def closeAll (s : Scan) : Scan :=
  if s.inFlow then s else closeList s.indents s

/-! ### Gaps -/

/-- Move to the next token: over spaces, comments and line breaks; a tab may not stand where a key
may start in a block. -/
def skipGaps : (fuel : Nat) → Scan → Scan
  | 0, s => s
  | fuel + 1, s =>
    let tabs := s.inFlow || !s.keyAllowed
    let c := s.cursor
    let c := if c.index = 0 && c.head? == some '\ufeff' then c.skip else c
    let c := (c.skipWhile fun ch => ch == ' ' || (tabs && ch == '\t')).skipComment
    if c.head?.any isBreak then
      skipGaps fuel { s with cursor := c.skipLine, keyAllowed := s.keyAllowed || !s.inFlow }
    else s.moveTo c

/-! ### Directives, anchors and tags -/

/-- A number of a version, of at most nine digits. -/
def readVersionNumber (c : Cursor) : Scanned Nat :=
  let (digits, after) := c.takeWhile Char.isDigit
  if digits.isEmpty || 9 < digits.length then none else some (Decimal.runValue digits, after)

/-- The handle of a tag, between exclamation marks; the second one may be missing. -/
def readHandle (c : Cursor) : Scanned (List Char) :=
  if c.head? = some '!' then
    let (name, after) := c.skip.takeWhile isNameChar
    if after.head? = some '!' then some ('!' :: name ++ ['!'], after.skip)
    else some ('!' :: name, after)
  else none

/-- A character of a tag; commas and brackets only between angle brackets. -/
def isTagChar (verbatim : Bool) (c : Char) : Bool :=
  isNameChar c || ";/?:@&=+$.%!~*'()".toList.contains c || (verbatim && ",[]".toList.contains c)

/-- Undo the percent signs of a tag. -/
def unescapeTag : List Char → Option (List Char)
  | [] => some []
  | '%' :: a :: b :: rest =>
    (Decimal.natOfDigits? 16 [a, b]).bind fun n =>
      if n < 128 then (unescapeTag rest).map (Char.ofNat n :: ·) else none
  | '%' :: _ => none
  | c :: rest => (unescapeTag rest).map (c :: ·)

/-- The characters of a tag behind a start that was read already. -/
def readTagText (verbatim : Bool) (start : List Char) (c : Cursor) : Scanned (List Char) :=
  let (text, after) := c.takeWhile (isTagChar verbatim)
  if start.isEmpty && text.isEmpty then none
  else (unescapeTag text).map fun text => (start.drop 1 ++ text, after)

/-- The end of the line of a directive. -/
def finishDirective (c : Cursor) : Option Cursor :=
  let c := (c.skipWhile isGap).skipComment
  if atLineEnd c.rest then some c.skipLine else none

/-- A directive. -/
def readDirective (c : Cursor) : Scanned Token :=
  let (name, c) := c.skip.takeWhile isNameChar
  if !atSpace c.rest then none
  else
    let c := c.skipWhile isGap
    if name = "YAML".toList then
      (readVersionNumber c).bind fun (major, c) =>
        if c.head? = some '.' then
          (readVersionNumber c.skip).bind fun (minor, c) =>
            (finishDirective c).map fun c => (.version major minor, c)
        else none
    else if name = "TAG".toList then
      (readHandle c).bind fun (handle, c) =>
        if handle ≠ ['!'] ∧ handle.getLast? ≠ some '!' then none
        else if !(c.head?.any isGap) then none
        else
          (readTagText true [] (c.skipWhile isGap)).bind fun (start, c) =>
            if atSpace c.rest then
              (finishDirective c).map fun c => (.tagDirective handle start, c)
            else none
    else none

/-- The name of an anchor or an alias. -/
def readName (c : Cursor) : Scanned (List Char) :=
  let (name, after) := c.skip.takeWhile isNameChar
  let ended := atSpace after.rest
    || after.head?.any fun ch => "?:,]\x7d%@\x60".toList.contains ch
  if name.isEmpty || !ended then none else some (name, after)

/-- A tag. -/
def readTag (inFlow : Bool) (c : Cursor) : Scanned Token :=
  let found : Scanned Token :=
    if c.rest.take 2 = ['!', '<'] then
      (readTagText true [] (c.skipMany 2)).bind fun (text, c) =>
        if c.head? = some '>' then some (.tag [] text, c.skip) else none
    else
      (readHandle c).bind fun (handle, after) =>
        if 1 < handle.length ∧ handle.getLast? = some '!' then
          (readTagText false [] after).map fun (text, c) => (.tag handle text, c)
        else
          (readTagText false handle after).map fun (text, c) =>
            (if text.isEmpty then .tag [] ['!'] else .tag ['!'] text, c)
  found.bind fun (t, c) =>
    if atSpace c.rest || (inFlow && c.head? == some ',') then some (t, c) else none

/-! ### Tokens -/

/-- The mark of the start or the end of a document. -/
def documentMark (t : Token) (s : Scan) : Option Scan :=
  s.closeAll.removeKey.map fun s =>
    ((s.allowKey false).moveTo (s.cursor.skipMany 3)).push t

/-- The start of a flow collection. -/
def openFlow (t : Token) (s : Scan) : Option Scan :=
  s.saveKey.map fun s =>
    ({ s with flow := s.flow + 1, keys := none :: s.keys, keyAllowed := true
              cursor := s.cursor.skip }).push t

/-- The end of a flow collection. -/
def closeFlow (t : Token) (s : Scan) : Option Scan :=
  s.removeKey.map fun s =>
    let s := if s.inFlow then { s with flow := s.flow - 1, keys := s.keys.drop 1 } else s
    ((s.allowKey false).moveTo s.cursor.skip).push t

/-- A comma. -/
def flowEntry (s : Scan) : Option Scan :=
  s.removeKey.map fun s => ((s.allowKey true).moveTo s.cursor.skip).push .flowEntry

/-- The dash of an entry. -/
def blockEntry (s : Scan) : Option Scan :=
  if !s.inFlow && !s.keyAllowed then none
  else
    (s.openBlock s.cursor.column none .blockSequenceStart).removeKey.map fun s =>
      ((s.allowKey true).moveTo s.cursor.skip).push .blockEntry

/-- The question mark of a key. -/
def explicitKey (s : Scan) : Option Scan :=
  if !s.inFlow && !s.keyAllowed then none
  else
    (s.openBlock s.cursor.column none .blockMappingStart).removeKey.map fun s =>
      ((s.allowKey (!s.inFlow)).moveTo s.cursor.skip).push .key

/-- The colon of a value; its key is marked where it started. -/
def valueMark (s : Scan) : Option Scan :=
  match s.keys with
  | some key :: rest =>
    let s := (s.pushAt key.tokens .key).openBlock key.column (some key.tokens) .blockMappingStart
    let s := { s with keys := none :: rest, keyAllowed := false, cursor := s.cursor.skip }
    some (s.push .value)
  | _ =>
    if !s.inFlow && !s.keyAllowed then none
    else
      let s := s.openBlock s.cursor.column none .blockMappingStart
      some (((s.allowKey (!s.inFlow)).moveTo s.cursor.skip).push .value)

/-- Add what a reader found; a key may start with it. -/
def node (found : Scan → Scanned Token) (s : Scan) : Option Scan :=
  s.saveKey.bind fun s => (found s).map fun (t, c) => ((s.allowKey false).moveTo c).push t

/-- A scalar between quotes. -/
def quotedScalar (single : Bool) (s : Scan) : Option Scan :=
  s.node fun s => (readQuoted single s.cursor).map fun (text, c) => (.scalar .quoted text, c)

/-- A scalar in a block of lines. -/
def blockScalar (folded : Bool) (s : Scan) : Option Scan :=
  s.removeKey.bind fun s =>
    (readBlock folded s.indent? s.cursor).map fun (text, c) =>
      ((s.allowKey true).moveTo c).push (.scalar .block text)

/-- A scalar without quotes. -/
def plainScalar (s : Scan) : Option Scan :=
  s.saveKey.bind fun s =>
    (readPlain s.inFlow s.inner s.cursor).map fun ((text, broken), c) =>
      ((s.allowKey broken).moveTo c).push (.scalar .plain text)

/-- Characters that start no plain scalar. -/
def indicators : List Char :=
  "-?:,[]\x7b\x7d#&*!|>'\"%@\x60".toList

/-- Whether a plain scalar starts here. -/
def startsPlain (inFlow : Bool) (c : Char) (rest : List Char) : Bool :=
  (!indicators.contains c && !isGap c)
    || (c == '-' && !(rest.head?.any isGap))
    || (!inFlow && (c == '?' || c == ':') && !atSpace rest)

/-- The token that starts with a character. -/
def nextFrom (ch : Char) (rest : List Char) (s : Scan) : Option Scan :=
  if s.cursor.column = 0 ∧ ch = '%' then
    s.closeAll.removeKey.bind fun s =>
      (readDirective s.cursor).map fun (t, c) => ((s.allowKey false).moveTo c).push t
  else if s.cursor.column = 0 ∧ atMark '-' (ch :: rest) then s.documentMark .documentStart
  else if s.cursor.column = 0 ∧ atMark '.' (ch :: rest) then s.documentMark .documentEnd
  else if ch = '[' then s.openFlow .flowSequenceStart
  else if ch = '{' then s.openFlow .flowMappingStart
  else if ch = ']' then s.closeFlow .flowSequenceEnd
  else if ch = '}' then s.closeFlow .flowMappingEnd
  else if ch = ',' then s.flowEntry
  else if ch = '-' ∧ atSpace rest then s.blockEntry
  else if ch = '?' ∧ (s.inFlow ∨ atSpace rest) then s.explicitKey
  else if ch = ':' ∧ (s.inFlow ∨ atSpace rest) then s.valueMark
  else if ch = '*' then
    s.node fun s => (readName s.cursor).map fun (name, c) => (.alias name, c)
  else if ch = '&' then
    s.node fun s => (readName s.cursor).map fun (name, c) => (.anchor name, c)
  else if ch = '!' then s.node fun s => readTag s.inFlow s.cursor
  else if ch = '|' ∧ !s.inFlow then s.blockScalar false
  else if ch = '>' ∧ !s.inFlow then s.blockScalar true
  else if ch = '\'' then s.quotedScalar true
  else if ch = '"' then s.quotedScalar false
  else if startsPlain s.inFlow ch rest then s.plainScalar
  else none

/-- One more token, and whether it was the last one. -/
def next (s : Scan) : Option (Scan × Bool) :=
  let s := s.skipGaps (s.cursor.rest.length + 1)
  (dropStaleKeys s.cursor s.keys).bind fun keys =>
    let s := { s with keys }
    let s := if s.inFlow then s else closeBlocks s.cursor.column s.indents s
    match s.cursor.rest with
    | [] =>
      s.closeAll.removeKey.map fun s => (s.push .streamEnd, true)
    | ch :: rest => (nextFrom ch rest s).map fun s => (s, false)

/-- All tokens from a state. -/
def run : (fuel : Nat) → Scan → Option (List Token)
  | 0, _ => none
  | fuel + 1, s =>
    s.next.bind fun (s, done) => if done then some s.tokens.reverse else run fuel s

end Scan

/-- The tokens of a stream. -/
def scan? (cs : List Char) : Option (List Token) :=
  if cs.all isAllowed then Scan.run (cs.length + 2) { cursor := { rest := cs } } else none

end Runbook.Yaml
