import Runbook.Decimal.Reading
import Runbook.Text.Blank
/-!
# Tokens of conditions

* `Token` — numerals, characters, texts, words and symbols;
* `readText`, `readVerbatim` — texts with escapes, and texts between backticks, which may hold
  expressions;
* `readNumber` — integers in four bases and decimal numerals;
* `scan?` — the tokens of an expression, or none if some part of it is no token.

A minus sign directly before a digit belongs to the numeral when no operand precedes it.
-/

namespace Runbook.Condition

open Runbook.Text

/-- A token; `opened` is the part of a text before an expression in it. -/
inductive Token where
  | int (value : Int)
  | double (value : Double)
  | char (c : Char)
  | str (text : List Char)
  | opened (text : List Char)
  | word (name : List Char)
  | symbol (text : String)
deriving DecidableEq, Repr

/-! ### Texts -/

/-- Where a reader of texts is: between characters, behind a backslash, or in the digits of a code
point. -/
inductive TextState where
  | plain
  | escaped
  | code (left value : Nat)

/-- The character behind a backslash that stands for another one. -/
def escapeOf? (c : Char) : Option Char :=
  if c = 'n' then some '\n'
  else if c = 't' then some '\t'
  else if c = 'r' then some '\r'
  else if c = '\\' then some '\\'
  else none

/-- The number of digits of a code point behind its letter. -/
def codeDigits? (c : Char) : Option Nat :=
  if c = 'x' then some 2 else if c = 'u' then some 4 else if c = 'U' then some 8 else none

/-- The character of a code point. -/
def charOfCode? (n : Nat) : Option Char :=
  if n.isValidChar then some (Char.ofNat n) else none

/-- A text up to its closing quote, which is written twice inside; a line may go on behind a
backslash between double quotes. -/
def readText (quote : Char) : TextState → List Char → Option (List Char × List Char)
  | _, [] => none
  | .code left value, c :: cs =>
    (Decimal.digitValue? 16 c).bind fun d =>
      let value := 16 * value + d
      if left ≤ 1 then
        (charOfCode? value).bind fun c =>
          (readText quote .plain cs).map fun (text, rest) => (c :: text, rest)
      else readText quote (.code (left - 1) value) cs
  | .escaped, c :: cs =>
    match escapeOf? c, codeDigits? c with
    | some e, _ => (readText quote .plain cs).map fun (text, rest) => (e :: text, rest)
    | none, some left => readText quote (.code left 0) cs
    | none, none =>
      if c = quote then (readText quote .plain cs).map fun (text, rest) => (c :: text, rest)
      else if c = '\n' ∧ quote = '"' then readText quote .plain cs
      else if c = '\r' ∧ cs.head? = some '\n' then readText quote .escaped cs
      else none
  | .plain, c :: cs =>
    if c = quote then
      match cs with
      | [] => some ([], [])
      | d :: rest =>
        if d = quote then
          (readText quote .plain rest).map fun (text, rest) => (c :: text, rest)
        else some ([], d :: rest)
    else if c = '\\' then readText quote .escaped cs
    else if c = '\n' then none
    else if c = '\r' ∧ cs.head? = some '\n' then readText quote .plain cs
    else (readText quote .plain cs).map fun (text, rest) => (c :: text, rest)

/-- A text between backticks up to its end, or up to an expression, whose brace is kept. -/
def readVerbatim : List Char → Option (Token × List Char)
  | [] => none
  | c :: cs =>
    if c = '\x60' then
      match cs with
      | [] => some (.str [], [])
      | d :: rest =>
        if d = '\x60' then (readVerbatim rest).map (push c) else some (.str [], d :: rest)
    else if c = '$' ∧ cs.head? = some '\x7b' then some (.opened [], cs)
    else if c = '\r' ∧ cs.head? = some '\n' then readVerbatim cs
    else (readVerbatim cs).map (push c)
where
  /-- Put a character in front of the text of a token. -/
  push (c : Char) : Token × List Char → Token × List Char
    | (.str text, rest) => (.str (c :: text), rest)
    | (.opened text, rest) => (.opened (c :: text), rest)
    | found => found

/-! ### Numerals -/

/-- The characters of a numeral without underscores: digits, points that no name follows, and
exponents; `signed` says that the sign of an exponent may stand here. -/
def numeralRun (isDigit : Char → Bool) : (signed : Bool) → List Char → List Char × List Char
  | _, [] => ([], [])
  | signed, c :: cs =>
    let next := cs.head?
    if signed ∧ (c = '+' ∨ c = '-') then push [c] (numeralRun isDigit false cs)
    else if c = '_' then numeralRun isDigit false cs
    else if isDigit c then push [c] (numeralRun isDigit false cs)
    else if c = '.' then
      if next.any Char.isDigit then push ['.'] (numeralRun isDigit false cs)
      else if next.all fun d => d == '_' || d == '.' || d.isAlpha then ([], c :: cs)
      else push ['.', '0'] (numeralRun isDigit false cs)
    else if c = 'e' ∨ c = 'E' then
      if next.any fun d => d.isDigit || d == '+' || d == '-' then
        push ['e'] (numeralRun isDigit true cs)
      else ([], c :: cs)
    else ([], c :: cs)
where
  /-- Put characters in front of a run. -/
  push (cs : List Char) (run : List Char × List Char) : List Char × List Char :=
    (cs ++ run.1, run.2)

/-- The base behind a leading zero. -/
def baseOf? (c : Char) : Option Nat :=
  if c = 'x' ∨ c = 'X' then some 16
  else if c = 'o' ∨ c = 'O' then some 8
  else if c = 'b' ∨ c = 'B' then some 2
  else none

/-- An integer as a signed 64-bit word. -/
def wrap (i : Int) : Int :=
  Int.bmod i (Nat.pow 2 64)

/-- The number of a decimal numeral: an integer if it is one in the range of signed words. -/
def decimalToken? (cs : List Char) : Option Token :=
  match (Decimal.readInt? 10 cs).filter fun i => -(Int.pow 2 63) ≤ i ∧ i < Int.pow 2 63 with
  | some i => some (.int i)
  | none => (Decimal.readDouble? cs).map .double

/-- A numeral, which may have a minus sign, and what follows it. -/
def readNumber (negative : Bool) (cs : List Char) : Option (Token × List Char) :=
  match cs with
  | '0' :: b :: rest =>
    match baseOf? b with
    | some base =>
      let (digits, rest) := numeralRun (fun c => (Decimal.digitValue? base c).isSome) false rest
      ((Decimal.natOfDigits? base digits).filter (· < Nat.pow 2 64)).map fun n =>
        (.int (wrap (if negative then -(n : Int) else n)), rest)
    | none => decimal
  | _ => decimal
where
  /-- A decimal numeral. -/
  decimal : Option (Token × List Char) :=
    let (digits, rest) := numeralRun Char.isDigit false cs
    (decimalToken? (if negative then '-' :: digits else digits)).map fun t => (t, rest)

/-! ### Words and symbols -/

/-- A word: letters, digits and underscores that start with a letter when the leading underscores
are dropped, or a lone underscore. -/
def isWord (cs : List Char) : Bool :=
  cs == ['_'] || ((cs.dropWhile (· == '_')).head?.map Char.isAlpha).getD false

/-- The symbols, longer ones before their beginnings. -/
def symbols : List String :=
  ["**=", "<<=", ">>=", "..=", "()", "\x23\x7b", "+=", "-=", "*=", "**", "/=", "..", "==", "=>",
    "?.", "??", "?[", "::", "<=", "<<", ">=", ">>", "!=", "||", "|=", "&&", "&=", "^=", "%=",
    "\x7b", "\x7d", "(", ")", "[", "]", "+", "-", "*", "/", ";", ",", ".", "=", ":", "<", ">", "!",
    "|", "&", "^", "%"]

/-- Character sequences that no symbol may start with. -/
def refused : List String :=
  ["...", "===", "!==", "::<", "(*", "*)", "++", "--", "->", ":=", ":;", "<-", "<|", "!.", "|>"]

/-- The symbol at the front of a text. -/
def readSymbol (cs : List Char) : Option (String × List Char) :=
  if refused.any fun s => s.toList.isPrefixOf cs then none
  else symbols.findSome? fun s => (dropStart? s.toList cs).map fun rest => (s, rest)

/-- The symbol of negated membership, behind which no word may go on. -/
def readNotIn : List Char → Option (List Char)
  | '!' :: 'i' :: 'n' :: rest => if rest.head?.any isIdentChar then none else some rest
  | _ => none

/-- What follows a comment of nested levels. -/
def dropComment : (level : Nat) → List Char → List Char
  | _, [] => []
  | level, '/' :: '*' :: cs => dropComment (level + 1) cs
  | level, '*' :: '/' :: cs => if level ≤ 1 then cs else dropComment (level - 1) cs
  | level, _ :: cs => dropComment level cs

/-- Words behind which a minus sign is a sign. -/
def openingWords : List (List Char) :=
  ["if", "else", "in", "switch", "while", "until", "return", "throw"].map String.toList

/-- Whether a minus sign behind a token is a sign. -/
def Token.precedesSign : Token → Bool
  | .symbol s => !(["()", ")", "]", "\x7d"].contains s)
  | .word w => openingWords.contains w
  | _ => false

/-! ### Whole expressions -/

/-- The next token that is no blank or comment: a token with what follows it, or nothing at the end;
`signed` says that a minus sign may belong to a numeral. -/
inductive Scanned where
  | blank (rest : List Char)
  | token (t : Token) (rest : List Char)

/-- The front of a text. -/
def scanFront? (signed : Bool) (cs : List Char) : Option Scanned :=
  match cs with
  | [] => none
  | c :: rest =>
    if isBlank c then some (.blank rest)
    else if c = '/' ∧ rest.head? = some '/' then some (.blank (rest.dropWhile (· != '\n')))
    else if c = '/' ∧ rest.head? = some '*' then some (.blank (dropComment 1 (rest.drop 1)))
    else if c = '"' then
      (readText c .plain rest).map fun (text, rest) => .token (.str text) rest
    else if c = '\'' then
      (readText c .plain rest).bind fun (text, rest) =>
        match text with
        | [c] => some (.token (.char c) rest)
        | _ => none
    else if c = '\x60' then (readVerbatim rest).map fun (t, rest) => .token t rest
    else if c.isDigit then (readNumber false cs).map fun (t, rest) => .token t rest
    else if c = '-' ∧ signed ∧ rest.head?.any Char.isDigit then
      (readNumber true rest).map fun (t, rest) => .token t rest
    else if isIdentStart c then
      let name := cs.takeWhile isIdentChar
      if isWord name then some (.token (.word name) (cs.dropWhile isIdentChar)) else none
    else
      match readNotIn cs with
      | some rest => some (.token (.symbol "!in") rest)
      | none => (readSymbol cs).map fun (s, rest) => .token (.symbol s) rest

/-- The tokens of a text; `depths` counts the open braces in each expression inside a text that is
still open. -/
def scanFrom? : (fuel : Nat) → (signed : Bool) → (depths : List Nat) → List Char →
    Option (List Token)
  | _, _, _, [] => some []
  | 0, _, _, _ => none
  | fuel + 1, signed, depths, cs =>
    (scanFront? signed cs).bind fun front =>
      match front with
      | .blank rest => scanFrom? fuel signed depths rest
      | .token (.opened text) rest =>
        (scanFrom? fuel true (0 :: depths) rest).map (.opened text :: ·)
      | .token t rest =>
        if t = .symbol "\x7b" ∨ t = .symbol "\x23\x7b" then
          (scanFrom? fuel true (deeper depths) rest).map (t :: ·)
        else if t = .symbol "\x7d" then
          match depths with
          | 1 :: outer =>
            (readVerbatim rest).bind fun (text, rest) =>
              match text with
              | .opened _ => (scanFrom? fuel true (0 :: outer) rest).map fun ts => t :: text :: ts
              | _ => (scanFrom? fuel false outer rest).map fun ts => t :: text :: ts
          | depths => (scanFrom? fuel false (shallower depths) rest).map (t :: ·)
        else (scanFrom? fuel t.precedesSign depths rest).map (t :: ·)
where
  /-- One more open brace. -/
  deeper : List Nat → List Nat
    | [] => []
    | d :: outer => (d + 1) :: outer
  /-- One open brace less. -/
  shallower : List Nat → List Nat
    | [] => []
    | d :: outer => (d - 1) :: outer

/-- The tokens of an expression. -/
def scan? (cs : List Char) : Option (List Token) :=
  scanFrom? (cs.length + 1) true [] cs

end Runbook.Condition
