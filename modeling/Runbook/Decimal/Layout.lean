import Runbook.Decimal.Shortest
import Runbook.Text.Blank
/-!
# Written forms of doubles

How the shortest digits of a double are laid out:

* `plain` — positional at every size, and no point in an integral value;
* `data` — the form of documents: a point in every positional value, and an exponent from
  `10 ^ 16` up and below `10 ^ -5`;
* `scientific` — one digit before the point and an exponent without a plus sign.
-/

namespace Runbook.Decimal

/-- The digits of a natural number. -/
def digitsOf (n : Nat) : List Char :=
  Nat.toDigits 10 n

/-- Zeros. -/
def zeros (n : Nat) : List Char :=
  List.replicate n '0'

/-- The digits with the point after the first `point` of them, which may lie outside; `whole` is
added to an integral value. -/
def positional (digits : List Char) (point : Int) (whole : List Char) : List Char :=
  if point ≤ 0 then '0' :: '.' :: zeros (-point).toNat ++ digits
  else
    let before := point.toNat
    if digits.length ≤ before then digits ++ zeros (before - digits.length) ++ whole
    else digits.take before ++ '.' :: digits.drop before

/-- One digit before the point, and an exponent. -/
def exponential (digits : List Char) (point : Int) (plus : Bool) : List Char :=
  let e := point - 1
  let sign : List Char := if e < 0 then ['-'] else if plus then ['+'] else []
  let mantissa :=
    match digits with
    | [] => ['0']
    | [d] => [d]
    | d :: rest => d :: '.' :: rest
  mantissa ++ 'e' :: sign ++ digitsOf e.natAbs

/-- Add the sign, and write the values that are not finite. -/
def signed (d : Double) (magnitude : List Char) : String :=
  if d.isNaN then "NaN"
  else
    let body := if d.isFinite then magnitude else ['i', 'n', 'f']
    String.ofList (if d.isNegative then '-' :: body else body)

/-- The digits of a finite double and the place of the point in them. -/
def layout (d : Double) : List Char × Int :=
  let s := shortest d
  let digits := digitsOf s.digits
  (digits, if s.digits = 0 then 1 else s.exponent + digits.length)

/-- Positional at every size; an integral value has no point. -/
def plain (d : Double) : String :=
  let (digits, point) := layout d
  signed d (positional digits point [])

/-- The form of documents: a point in every positional value, an exponent from `10 ^ 16` up and
below `10 ^ -5`. -/
def data (d : Double) : String :=
  let (digits, point) := layout d
  signed d
    (if -5 < point ∧ point ≤ 16 then positional digits point ['.', '0']
     else exponential digits point true)

/-- One digit before the point and an exponent. -/
def scientific (d : Double) : String :=
  let (digits, point) := layout d
  signed d (exponential digits point false)

end Runbook.Decimal
