import Runbook.Value.Basic
import Runbook.Decimal.Reading
/-!
# Reading values

A reader of documents in braces and brackets, strict about the format:

* `Lexeme` readers — literals, strings with escapes, numerals; each returns the rest of the text;
* `readValue` — a value nested at most `depth` deep;
* `Value.ofText?` — a whole text as one value, nested less than `Value.maxDepth` deep; a key that
  is repeated keeps its last value.

An integer of at most 64 bits stays an integer.  Any other numeral becomes a double: the leading
digits that fit in 64 bits, scaled by one power of ten, so the result can be off by one place
from the nearest double.  A numeral beyond the doubles is refused.
-/

namespace Runbook.Value

open Runbook.Decimal

/-- The nesting that a reader refuses. -/
def maxDepth : Nat := 128

/-- The blanks between lexemes. -/
def isGap (c : Char) : Bool :=
  c == ' ' || c == '\n' || c == '\t' || c == '\r'

/-- Skip the blanks. -/
def skipGap (cs : List Char) : List Char :=
  cs.dropWhile isGap

/-! ### Numerals -/

/-- The largest 64-bit word. -/
def maxWord : Nat := Nat.pow 2 64 - 1

/-- Take the digits that keep the significand within a word; the rest is counted. -/
def takeWord : (word : Nat) → List Char → Nat × List Char
  | word, [] => (word, [])
  | word, c :: cs =>
    let next := 10 * word + (c.toNat - '0'.toNat)
    if next ≤ maxWord then takeWord next cs else (word, c :: cs)

/-- A word scaled by a power of ten, one rounding for the word and one for the power; nothing
beyond the doubles. -/
def scaleWord? (negative : Bool) (word : Nat) (exponent : Int) : Option Number :=
  let sign (d : Double) : Number := .double (if negative then d.neg else d)
  let f := Double.ofInt word
  if word = 0 then some (sign Double.zero)
  else if 308 < exponent then none
  else if 0 ≤ exponent then
    let scaled := f.mul (Double.ofDecimal false 1 exponent)
    if scaled.isFinite then some (sign scaled) else none
  else if -308 ≤ exponent then some (sign (f.div (Double.ofDecimal false 1 (-exponent))))
  else if -616 ≤ exponent then
    let once := f.div (Double.ofDecimal false 1 308)
    some (sign (once.div (Double.ofDecimal false 1 (-exponent - 308))))
  else some (sign Double.zero)

/-- The exponent of a numeral: `e`, an optional sign and at least one digit. -/
def readExponentPart? : List Char → Option (Int × List Char)
  | c :: cs =>
    if c = 'e' ∨ c = 'E' then
      let (negative, rest) :=
        match cs with
        | '-' :: rest => (true, rest)
        | '+' :: rest => (false, rest)
        | rest => (false, rest)
      let (digits, rest) := digitRun rest
      if digits.isEmpty then none
      else
        let e : Int := runValue digits
        some (if negative then -e else e, rest)
    else some (0, c :: cs)
  | [] => some (0, [])

/-- Whether an exponent part starts here. -/
def startsExponent : List Char → Bool
  | c :: _ => c == 'e' || c == 'E'
  | [] => false

/-- An unsigned numeral behind its sign. -/
def readNumber? (negative : Bool) (cs : List Char) : Option (Number × List Char) :=
  let (whole, rest) := digitRun cs
  let leadingZero : Bool :=
    match whole with
    | '0' :: _ :: _ => true
    | _ => false
  if whole.isEmpty || leadingZero then none
  else
    let (word, left) := takeWord 0 whole
    match rest with
    | '.' :: more =>
      let (fraction, rest) := digitRun more
      if fraction.isEmpty then none
      else
        let (word, beyond) := if left.isEmpty then takeWord word fraction else (word, fraction)
        let shift : Int := (left.length : Int) - (fraction.length - beyond.length : Nat)
        (readExponentPart? rest).bind fun (e, rest) =>
          (scaleWord? negative word (shift + e)).map fun n => (n, rest)
    | rest =>
      if startsExponent rest then
        (readExponentPart? rest).bind fun (e, rest) =>
          (scaleWord? negative word (left.length + e)).map fun n => (n, rest)
      else if !left.isEmpty then
        (scaleWord? negative word left.length).map fun n => (n, rest)
      else if !negative then some (.int word, rest)
      else if word = 0 then some (.double (Double.withSign true 0), rest)
      else if word ≤ Nat.pow 2 63 then some (.int (-(word : Int)), rest)
      else some (.double (Double.ofInt word).neg, rest)

/-! ### Strings -/

/-- Four hexadecimal digits. -/
def readHex4? : List Char → Option (Nat × List Char)
  | a :: b :: c :: d :: rest =>
    (natOfDigits? 16 [a, b, c, d]).map fun n => (n, rest)
  | _ => none

/-- The character of an escape behind its backslash, and the rest. -/
def readEscape? : List Char → Option (Char × List Char)
  | '"' :: rest => some ('"', rest)
  | '\\' :: rest => some ('\\', rest)
  | '/' :: rest => some ('/', rest)
  | 'b' :: rest => some ('\x08', rest)
  | 'f' :: rest => some ('\x0c', rest)
  | 'n' :: rest => some ('\n', rest)
  | 'r' :: rest => some ('\r', rest)
  | 't' :: rest => some ('\t', rest)
  | 'u' :: rest =>
    (readHex4? rest).bind fun (high, rest) =>
      if 0xD800 ≤ high ∧ high < 0xDC00 then
        match rest with
        | '\\' :: 'u' :: more =>
          (readHex4? more).bind fun (low, more) =>
            if 0xDC00 ≤ low ∧ low < 0xE000 then
              some (Char.ofNat (0x10000 + (high - 0xD800) * 1024 + (low - 0xDC00)), more)
            else none
        | _ => none
      else if 0xDC00 ≤ high ∧ high < 0xE000 then none
      else some (Char.ofNat high, rest)
  | _ => none

/-- The characters up to the closing quote, in reverse behind `done`, and the rest. -/
def readChars : (fuel : Nat) → (done : List Char) → List Char → Option (List Char × List Char)
  | 0, _, _ => none
  | _ + 1, _, [] => none
  | fuel + 1, done, c :: cs =>
    if c = '"' then some (done.reverse, cs)
    else if c = '\\' then
      (readEscape? cs).bind fun (d, rest) => readChars fuel (d :: done) rest
    else if c.toNat < 32 then none
    else readChars fuel (c :: done) cs

/-- A string behind its opening quote. -/
def readString? (cs : List Char) : Option (String × List Char) :=
  (readChars (cs.length + 1) [] cs).map fun (s, rest) => (String.ofList s, rest)

/-! ### Values -/

/-- A literal and the value it stands for. -/
def literals : List (List Char × Value) :=
  [(['n', 'u', 'l', 'l'], .null), (['t', 'r', 'u', 'e'], .bool true),
   (['f', 'a', 'l', 's', 'e'], .bool false)]

/-- The literal at the front of a text. -/
def readLiteral? (cs : List Char) : Option (Value × List Char) :=
  literals.findSome? fun (name, v) =>
    if name.isPrefixOf cs then some (v, cs.drop name.length) else none

mutual

/-- A value with less than `depth` levels of nesting, and the rest of the text. -/
def readValue : (fuel depth : Nat) → List Char → Option (Value × List Char)
  | 0, _, _ => none
  | fuel + 1, depth, cs =>
    match skipGap cs with
    | '"' :: rest => (readString? rest).map fun (s, rest) => (.str s, rest)
    | '[' :: rest =>
      if depth ≤ 1 then none
      else
        match skipGap rest with
        | ']' :: rest => some (.arr [], rest)
        | rest => (readItems fuel (depth - 1) rest).map fun (items, rest) => (.arr items, rest)
    | '{' :: rest =>
      if depth ≤ 1 then none
      else
        match skipGap rest with
        | '}' :: rest => some (.obj [], rest)
        | rest =>
          (readEntries fuel (depth - 1) rest).map fun (entries, rest) =>
            (.obj (Fields.ofList entries), rest)
    | '-' :: rest => (readNumber? true rest).map fun (n, rest) => (.num n, rest)
    | c :: rest =>
      if c.isDigit then (readNumber? false (c :: rest)).map fun (n, rest) => (.num n, rest)
      else readLiteral? (c :: rest)
    | [] => none

/-- The items of a list behind its bracket, up to the closing one. -/
def readItems : (fuel depth : Nat) → List Char → Option (List Value × List Char)
  | 0, _, _ => none
  | fuel + 1, depth, cs =>
    (readValue fuel depth cs).bind fun (v, rest) =>
      match skipGap rest with
      | ',' :: rest => (readItems fuel depth rest).map fun (vs, rest) => (v :: vs, rest)
      | ']' :: rest => some ([v], rest)
      | _ => none

/-- The entries of a record behind its brace, up to the closing one. -/
def readEntries : (fuel depth : Nat) → List Char → Option (List (String × Value) × List Char)
  | 0, _, _ => none
  | fuel + 1, depth, cs =>
    match skipGap cs with
    | '"' :: rest =>
      (readString? rest).bind fun (key, rest) =>
        match skipGap rest with
        | ':' :: rest =>
          (readValue fuel depth rest).bind fun (v, rest) =>
            match skipGap rest with
            | ',' :: rest =>
              (readEntries fuel depth rest).map fun (vs, rest) => ((key, v) :: vs, rest)
            | '}' :: rest => some ([(key, v)], rest)
            | _ => none
        | _ => none
    | _ => none

end

/-- A whole text as one value. -/
def ofChars? (cs : List Char) : Option Value :=
  (readValue (2 * cs.length + 2) maxDepth cs).bind fun (v, rest) =>
    if (skipGap rest).isEmpty then some v else none

/-- A whole text as one value. -/
def ofText? (s : String) : Option Value :=
  ofChars? s.toList

end Runbook.Value
