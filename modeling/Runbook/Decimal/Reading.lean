import Runbook.Decimal.Double
import Runbook.Text.Blank
/-!
# Reading decimals

Readers of numerals over character lists:

* `digitRun` — the digits at the front of a list, and what follows them;
* `natOfDigits` — the value of a digit list in a base;
* `readInt?` — a whole text as an integer in a base, with an optional sign;
* `readDouble?` — a whole text as a decimal numeral: an optional sign, digits with an optional
  point, at least one digit, and an optional exponent.
-/

namespace Runbook.Decimal

/-- The digits at the front of a list, and what follows them. -/
def digitRun (cs : List Char) : List Char × List Char :=
  (cs.takeWhile Char.isDigit, cs.dropWhile Char.isDigit)

/-- The value of a digit in bases up to sixteen. -/
def digitValue? (base : Nat) (c : Char) : Option Nat :=
  let value? : Option Nat :=
    if c.isDigit then some (c.toNat - '0'.toNat)
    else if 'a' ≤ c ∧ c ≤ 'z' then some (c.toNat - 'a'.toNat + 10)
    else if 'A' ≤ c ∧ c ≤ 'Z' then some (c.toNat - 'A'.toNat + 10)
    else none
  value?.filter (· < base)

/-- The value of a list of digits, which may be empty. -/
def digitsValue? (base : Nat) : (value : Nat) → List Char → Option Nat
  | value, [] => some value
  | value, c :: cs => (digitValue? base c).bind fun d => digitsValue? base (base * value + d) cs

/-- The value of a non-empty list of digits. -/
def natOfDigits? (base : Nat) (cs : List Char) : Option Nat :=
  if cs.isEmpty then none else digitsValue? base 0 cs

/-- A whole text as an integer with an optional sign. -/
def readInt? (base : Nat) : List Char → Option Int
  | '-' :: cs => (natOfDigits? base cs).map fun n => -(n : Int)
  | '+' :: cs => (natOfDigits? base cs).map Int.ofNat
  | cs => (natOfDigits? base cs).map Int.ofNat

/-- The exponent part of a numeral: nothing, or `e` with an optional sign and digits. -/
def readExponent? : List Char → Option Int
  | [] => some 0
  | c :: cs => if c = 'e' ∨ c = 'E' then readInt? 10 cs else none

/-- The value of a run of digits. -/
def runValue (cs : List Char) : Nat :=
  cs.foldl (fun n c => 10 * n + (c.toNat - '0'.toNat)) 0

/-- An unsigned decimal numeral. -/
def readMagnitude? (negative : Bool) (cs : List Char) : Option Double :=
  let (whole, rest) := digitRun cs
  let (fraction, rest) :=
    match rest with
    | '.' :: more => digitRun more
    | _ => ([], rest)
  if whole.isEmpty && fraction.isEmpty then none
  else
    (readExponent? rest).map fun e =>
      Double.ofDecimal negative (runValue (whole ++ fraction)) (e - fraction.length)

/-- A whole text as a decimal numeral. -/
def readDouble? : List Char → Option Double
  | '-' :: cs => readMagnitude? true cs
  | '+' :: cs => readMagnitude? false cs
  | cs => readMagnitude? false cs

end Runbook.Decimal
