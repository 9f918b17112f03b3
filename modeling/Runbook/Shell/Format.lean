import Runbook.Text.Blank
import Runbook.Text.Utf8
/-!
# Formats

What `printf` and `echo` write:

* `readEscape?` — one character after a backslash, as bytes;
* `unescape` — a text with its escapes replaced, up to one that ends the output;
* `Directive` — one conversion of a format, with its flags, width and precision;
* `printf` — a format applied to words, again and again while there are words left.
-/

namespace Runbook.Shell

/-! ### Escapes -/

/-- The letters that stand for a control character after a backslash. -/
def controlLetters : List (Char × UInt8) :=
  [('a', 7), ('b', 8), ('e', 27), ('f', 12), ('n', 10), ('r', 13), ('t', 9), ('v', 11),
    ('\\', 92)]

/-- Whether a character is an octal digit. -/
def isOctal (c : Char) : Bool :=
  '0' ≤ c && c ≤ '7'

/-- At most `count` octal digits as a number, and what follows them. -/
def takeOctal : (count value : Nat) → List Char → Nat × List Char
  | 0, value, cs => (value, cs)
  | _ + 1, value, [] => (value, [])
  | count + 1, value, c :: cs =>
    if isOctal c then takeOctal count (8 * value + (c.toNat - 48)) cs else (value, c :: cs)

/-- The bytes of a character behind a backslash, and what follows; `zeroLed` tells whether octal
digits need a zero before them. -/
def readEscape? (zeroLed : Bool) : List Char → Option (List UInt8 × List Char)
  | [] => none
  | c :: cs =>
    match controlLetters.lookup c with
    | some b => some ([b], cs)
    | none =>
      if zeroLed then
        if c = '0' then
          let (value, rest) := takeOctal 3 0 cs
          some ([value.toUInt8], rest)
        else none
      else if isOctal c then
        let (value, rest) := takeOctal 3 0 (c :: cs)
        some ([value.toUInt8], rest)
      else none

/-- A text with its escapes replaced, and whether an escape ended the output. -/
def unescape : (fuel : Nat) → List Char → List UInt8 × Bool
  | 0, _ => ([], false)
  | _ + 1, [] => ([], false)
  | fuel + 1, '\\' :: cs =>
    if cs.head? = some 'c' then ([], true)
    else
      match readEscape? true cs with
      | some (bytes, rest) =>
        let (more, ended) := unescape fuel rest
        (bytes ++ more, ended)
      | none =>
        let (more, ended) := unescape fuel cs
        (92 :: more, ended)
  | fuel + 1, c :: cs =>
    let (more, ended) := unescape fuel cs
    (Text.Utf8.encode [c] ++ more, ended)

/-! ### Directives -/

/-- One conversion of a format. -/
structure Directive where
  left : Bool := false
  zero : Bool := false
  plus : Bool := false
  space : Bool := false
  width : Nat := 0
  precision : Option Nat := none
  conversion : Char
deriving Repr

/-- The flags of a directive. -/
def readFlags (d : Directive) : List Char → Directive × List Char
  | [] => (d, [])
  | c :: cs =>
    if c = '-' then readFlags { d with left := true } cs
    else if c = '0' then readFlags { d with zero := true } cs
    else if c = '+' then readFlags { d with plus := true } cs
    else if c = ' ' then readFlags { d with space := true } cs
    else (d, c :: cs)

/-- The digits at the start of a text as a number. -/
def takeDecimal (cs : List Char) : Nat × List Char :=
  ((cs.takeWhile Char.isDigit).foldl (fun n c => 10 * n + (c.toNat - 48)) 0,
    cs.dropWhile Char.isDigit)

/-- The directive behind a percent sign. -/
def readDirective? (cs : List Char) : Option (Directive × List Char) :=
  let (d, cs) := readFlags { conversion := '%' } cs
  let (width, cs) := takeDecimal cs
  let (precision, cs) := match cs with
    | '.' :: cs =>
      let (n, cs) := takeDecimal cs
      (some n, cs)
    | cs => (none, cs)
  match cs with
  | [] => none
  | c :: cs => some ({ d with width, precision, conversion := c }, cs)

/-- Bytes padded to the width of a directive. -/
def pad (d : Directive) (bytes : List UInt8) : List UInt8 :=
  let missing := List.replicate (d.width - bytes.length) (32 : UInt8)
  if d.left then bytes ++ missing else missing ++ bytes

/-- The integer that a word starts with, and nothing else. -/
def readInteger? (word : String) : Option Int :=
  let digits (cs : List Char) : Option Nat :=
    if cs ≠ [] ∧ cs.all Char.isDigit then
      some (if cs.head? = some '0' then (takeOctal cs.length 0 cs).1 else (takeDecimal cs).1)
    else none
  match word.toList with
  | [] => some 0
  | '-' :: cs => (digits cs).map fun n => -(n : Int)
  | '+' :: cs => (digits cs).map fun n => (n : Int)
  | '\'' :: c :: _ => some (c.toNat : Int)
  | '"' :: c :: _ => some (c.toNat : Int)
  | cs => (digits cs).map fun n => (n : Int)

/-- An integer in decimal as a directive asks for it. -/
def decimalBytes (d : Directive) (i : Int) : List UInt8 :=
  let digits := Text.padNat (d.precision.getD 1) i.natAbs
  let sign := if i < 0 then "-" else if d.plus then "+" else if d.space then " " else ""
  let zeros :=
    if d.zero && !d.left && d.precision.isNone then d.width - digits.length - sign.length else 0
  pad d (Text.Utf8.ofString (sign ++ String.ofList (List.replicate zeros '0') ++ digits))

/-- A natural number in a base. -/
def baseBytes (d : Directive) (base : Nat) (upper : Bool) (n : Nat) : List UInt8 :=
  let digits := Nat.toDigits base n
  let digits := if upper then digits.map Char.toUpper else digits
  let fill := if d.zero && !d.left then d.width - digits.length else 0
  pad d (Text.Utf8.encode (List.replicate fill '0' ++ digits))

/-- What one directive writes for a word; none if the word is no number and has to be one. -/
def Directive.bytes? (d : Directive) (word : String) : Option (List UInt8) :=
  let cut (bytes : List UInt8) : List UInt8 :=
    match d.precision with
    | some n => bytes.take n
    | none => bytes
  let unsigned (i : Int) : Nat := (if i < 0 then i + Int.pow 2 64 else i).toNat
  match d.conversion with
  | 's' => some (pad d (cut (Text.Utf8.ofString word)))
  | 'b' => some (pad d (cut (unescape (word.length + 1) word.toList).1))
  | 'c' => some (pad d ((Text.Utf8.ofString word).take 1))
  | 'd' | 'i' => (readInteger? word).map (decimalBytes d)
  | 'u' => (readInteger? word).map fun i => decimalBytes d (unsigned i)
  | 'x' => (readInteger? word).map fun i => baseBytes d 16 false (unsigned i)
  | 'X' => (readInteger? word).map fun i => baseBytes d 16 true (unsigned i)
  | 'o' => (readInteger? word).map fun i => baseBytes d 8 false (unsigned i)
  | _ => none

/-! ### Formats -/

/-- What a format has written: the bytes, the words it has left, whether it took a word, and
whether each number was one. -/
structure Formatted where
  bytes : List UInt8 := []
  rest : List String := []
  used : Bool := false
  sound : Bool := true

/-- Apply a format once. -/
def formatOnce : (fuel : Nat) → List Char → List String → Formatted
  | 0, _, words => { rest := words }
  | _ + 1, [], words => { rest := words }
  | fuel + 1, '\\' :: cs, words =>
    match readEscape? false cs with
    | some (bytes, more) =>
      let f := formatOnce fuel more words
      { f with bytes := bytes ++ f.bytes }
    | none =>
      let (start, more) := match cs with
        | '"' :: more => ([(34 : UInt8)], more)
        | cs => ([92], cs)
      let f := formatOnce fuel more words
      { f with bytes := start ++ f.bytes }
  | fuel + 1, '%' :: cs, words =>
    match cs with
    | '%' :: more =>
      let f := formatOnce fuel more words
      { f with bytes := 37 :: f.bytes }
    | cs =>
      match readDirective? cs with
      | none => { bytes := [37], rest := words }
      | some (d, more) =>
        let f := formatOnce fuel more words.tail
        let word := words.head?.getD ""
        match d.bytes? word with
        | some bytes => { f with bytes := bytes ++ f.bytes, used := true }
        | none => { f with bytes := (d.bytes? "").getD [] ++ f.bytes, used := true, sound := false }
  | fuel + 1, c :: cs, words =>
    let f := formatOnce fuel cs words
    { f with bytes := Text.Utf8.encode [c] ++ f.bytes }

/-- Apply a format to all words. -/
def formatAll (format : List Char) : (fuel : Nat) → List String → List UInt8 × Bool
  | 0, _ => ([], true)
  | fuel + 1, words =>
    let f := formatOnce (format.length + 1) format words
    if f.used && !f.rest.isEmpty then
      let (bytes, sound) := formatAll format fuel f.rest
      (f.bytes ++ bytes, f.sound && sound)
    else (f.bytes, f.sound)

/-- What `printf` writes for a format and words, and whether each number was one. -/
def printf (format : String) (words : List String) : List UInt8 × Bool :=
  formatAll format.toList (words.length + 1) words

end Runbook.Shell
