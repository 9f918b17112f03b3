import Runbook.Text.Blank
/-!
# Dot-style actions

The inside of a tag `{{ … }}` in dot style, read up to its tree:

* `Token` and `Token.scan?` — strings, numerals, words and punctuation;
* `Term` — a string, a numeral, a word, or a parenthesised pipeline; a pipeline is a list of
  stages, a stage a list of terms;
* `readPipeline?` — a token list as a pipeline; nothing when the parentheses do not match or a
  comma or a declaration stands inside.
-/

namespace Runbook.Template.Action

/-- A lexeme of an action. -/
inductive Token where
  | str (text : List Char)
  | num (text : List Char)
  | word (text : List Char)
  | bar
  | opened
  | closed
  | comma
  | declare
deriving DecidableEq, Repr

/-- A character of a word: letters, digits, underscores, dots and dollar signs. -/
def isWordChar (c : Char) : Bool :=
  Text.isIdentChar c || c == '.' || c == '$'

/-- A character of a numeral after its first. -/
def isNumChar (c : Char) : Bool :=
  c.isDigit || c == '.'

/-- Whether a numeral starts here: a digit, or a minus sign before a digit. -/
def startsNumber : List Char → Bool
  | '-' :: d :: _ => d.isDigit
  | c :: _ => c.isDigit
  | [] => false

/-- The character that a backslash and `c` stand for in a string. -/
def unescape (c : Char) : Char :=
  if c = 'n' then '\n' else if c = 't' then '\t' else c

/-- The text of a string behind its opening quote, and what follows the closing one. -/
def readQuoted? : List Char → Option (List Char × List Char)
  | [] => none
  | '"' :: rest => some ([], rest)
  | '\\' :: c :: rest => (readQuoted? rest).map fun (s, rest) => (unescape c :: s, rest)
  | '\\' :: [] => none
  | c :: rest => (readQuoted? rest).map fun (s, rest) => (c :: s, rest)

/-- The text of a raw string behind its opening backtick, and what follows the closing one. -/
def readRaw? : List Char → Option (List Char × List Char)
  | [] => none
  | '\x60' :: rest => some ([], rest)
  | c :: rest => (readRaw? rest).map fun (s, rest) => (c :: s, rest)

/-- The tokens of a text; `fuel` bounds their number. -/
def scanFrom? : (fuel : Nat) → List Char → Option (List Token)
  | _, [] => some []
  | 0, _ :: _ => none
  | fuel + 1, c :: cs =>
    if Text.isBlank c then scanFrom? fuel cs
    else if c = '|' then (scanFrom? fuel cs).map (.bar :: ·)
    else if c = '(' then (scanFrom? fuel cs).map (.opened :: ·)
    else if c = ')' then (scanFrom? fuel cs).map (.closed :: ·)
    else if c = ',' then (scanFrom? fuel cs).map (.comma :: ·)
    else if c = ':' then
      match cs with
      | '=' :: rest => (scanFrom? fuel rest).map (.declare :: ·)
      | _ => none
    else if c = '"' then
      (readQuoted? cs).bind fun (s, rest) => (scanFrom? fuel rest).map (.str s :: ·)
    else if c = '\x60' then
      (readRaw? cs).bind fun (s, rest) => (scanFrom? fuel rest).map (.str s :: ·)
    else if startsNumber (c :: cs) then
      let digits := c :: cs.takeWhile isNumChar
      (scanFrom? fuel (cs.dropWhile isNumChar)).map (.num digits :: ·)
    else if isWordChar c then
      let word := c :: cs.takeWhile isWordChar
      (scanFrom? fuel (cs.dropWhile isWordChar)).map (.word word :: ·)
    else none

/-- The tokens of a text. -/
def scan? (cs : List Char) : Option (List Token) :=
  scanFrom? cs.length cs

/-- An operand of an action. -/
inductive Term where
  | str (text : List Char)
  | num (text : List Char)
  | word (text : List Char)
  | group (stages : List (List Term))
deriving Repr

/-- A stage of a pipeline: a command and its arguments. -/
abbrev Stage := List Term

/-- Stages, each of which feeds the next. -/
abbrev Pipeline := List Stage

/-- Read stages up to the end of the tokens or an unmatched closing parenthesis.  `stage` holds the
terms of the current stage and `stages` the earlier ones, both in reverse. -/
def readStages : (fuel : Nat) → (stages : List Stage) → (stage : Stage) → List Token →
    Option (Pipeline × List Token)
  | 0, _, _, _ => none
  | fuel + 1, stages, stage, tokens =>
    match tokens with
    | [] => some ((stage.reverse :: stages).reverse, [])
    | .closed :: rest => some ((stage.reverse :: stages).reverse, .closed :: rest)
    | .bar :: rest => readStages fuel (stage.reverse :: stages) [] rest
    | .str s :: rest => readStages fuel stages (.str s :: stage) rest
    | .num s :: rest => readStages fuel stages (.num s :: stage) rest
    | .word s :: rest => readStages fuel stages (.word s :: stage) rest
    | .opened :: rest =>
      match readStages fuel [] [] rest with
      | some (inner, .closed :: rest) => readStages fuel stages (.group inner :: stage) rest
      | _ => none
    | .comma :: _ => none
    | .declare :: _ => none

/-- A whole token list as a pipeline. -/
def readPipeline? (tokens : List Token) : Option Pipeline :=
  match readStages (tokens.length + 1) [] [] tokens with
  | some (pipeline, []) => some pipeline
  | _ => none

end Runbook.Template.Action
