/-!
# Binary64 numbers

A double is kept as its 64 bits, so that equality of doubles is decidable and two doubles are
equal exactly when they are the same datum.

* `Double.parts` — sign, significand `m` and exponent `q` of a finite double, whose value is
  `m * 2 ^ q`;
* `Double.ofRatio` — the double nearest to a quotient of natural numbers, ties to the even
  significand;
* `Double.rem` — the remainder of truncated division, which is always exact;
* arithmetic and order, which are those of the machine.

Powers are written with `Nat.pow` and `Int.pow`, which name one function whatever else is imported.
-/

namespace Runbook

/-- A binary64 datum. -/
structure Double where
  bits : UInt64
deriving DecidableEq, Repr

namespace Double

/-- The machine number with these bits. -/
def toFloat (d : Double) : Float :=
  Float.ofBits d.bits

/-- The bits of a machine number. -/
def ofFloat (x : Float) : Double :=
  ⟨x.toBits⟩

instance : Inhabited Double := ⟨⟨0⟩⟩

/-- Whether the sign bit is set. -/
def isNegative (d : Double) : Bool :=
  d.bits.toNat / Nat.pow 2 63 == 1

/-- The eleven exponent bits. -/
def exponentField (d : Double) : Nat :=
  d.bits.toNat / Nat.pow 2 52 % 2048

/-- The fifty-two fraction bits. -/
def fractionField (d : Double) : Nat :=
  d.bits.toNat % Nat.pow 2 52

/-- Neither infinite nor a NaN. -/
def isFinite (d : Double) : Bool :=
  d.exponentField != 2047

/-- Not a number. -/
def isNaN (d : Double) : Bool :=
  d.exponentField == 2047 && d.fractionField != 0

/-- Positive or negative zero. -/
def isZero (d : Double) : Bool :=
  d.exponentField == 0 && d.fractionField == 0

/-- The significand and exponent of the magnitude of a finite double: `m * 2 ^ q`. -/
def parts (d : Double) : Nat × Int :=
  if d.exponentField = 0 then (d.fractionField, -1074)
  else (Nat.pow 2 52 + d.fractionField, (d.exponentField : Int) - 1075)

/-- Set the sign bit. -/
def withSign (negative : Bool) (magnitude : Nat) : Double :=
  ⟨UInt64.ofNat (if negative then Nat.pow 2 63 + magnitude else magnitude)⟩

/-- The datum of an infinite magnitude. -/
def infinityBits : Nat := 2047 * Nat.pow 2 52

/-- Positive infinity. -/
def infinity : Double := withSign false infinityBits

/-- Negative infinity. -/
def negInfinity : Double := withSign true infinityBits

/-- The usual NaN. -/
def nan : Double := withSign false (infinityBits + Nat.pow 2 51)

/-- Positive zero. -/
def zero : Double := ⟨0⟩

/-- The quotient rounded to the nearest natural number, ties to the even one. -/
def roundQuotient (num den : Nat) : Nat :=
  let whole := num / den
  let twice := 2 * (num % den)
  if twice < den then whole
  else if den < twice then whole + 1
  else if whole % 2 = 0 then whole else whole + 1

/-- The bits of the magnitude nearest to `num / den`, where `q` is the exponent of its last
place. -/
def encodeAt (num den : Nat) (q : Int) : Nat :=
  let m := if 0 ≤ q then roundQuotient num (den * Nat.pow 2 q.toNat)
    else roundQuotient (num * Nat.pow 2 (-q).toNat) den
  min ((q + 1074).toNat * Nat.pow 2 52 + m) infinityBits

/-- The bits of the magnitude nearest to `num / den`. -/
def magnitudeOfRatio (num den : Nat) : Nat :=
  if num = 0 then 0
  else
    let e : Int := (num.log2 : Int) - (den.log2 : Int)
    let atLeast : Bool :=
      if 0 ≤ e then den * Nat.pow 2 e.toNat ≤ num else den ≤ num * Nat.pow 2 (-e).toNat
    let top := if atLeast then e else e - 1
    encodeAt num den (max (top - 52) (-1074))

/-- The double nearest to `num / den`, ties to the even significand. -/
def ofRatio (negative : Bool) (num den : Nat) : Double :=
  withSign negative (magnitudeOfRatio num den)

/-- The double nearest to an integer. -/
def ofInt (i : Int) : Double :=
  ofRatio (i < 0) i.natAbs 1

/-- The double nearest to `digits * 10 ^ exponent`. -/
def ofDecimal (negative : Bool) (digits : Nat) (exponent : Int) : Double :=
  if digits = 0 then withSign negative 0
  else
    let places : Int := (Nat.toDigits 10 digits).length
    if 400 < places + exponent then withSign negative infinityBits
    else if places + exponent < -400 then withSign negative 0
    else if 0 ≤ exponent then ofRatio negative (digits * Nat.pow 10 exponent.toNat) 1
    else ofRatio negative digits (Nat.pow 10 (-exponent).toNat)

/-! ### Arithmetic -/

/-- Change the sign. -/
def neg (d : Double) : Double :=
  withSign (!d.isNegative) (d.bits.toNat % Nat.pow 2 63)

/-- Drop the sign. -/
def abs (d : Double) : Double :=
  withSign false (d.bits.toNat % Nat.pow 2 63)

/-- Machine addition. -/
def add (a b : Double) : Double := ofFloat (a.toFloat + b.toFloat)

/-- Machine subtraction. -/
def sub (a b : Double) : Double := ofFloat (a.toFloat - b.toFloat)

/-- Machine multiplication. -/
def mul (a b : Double) : Double := ofFloat (a.toFloat * b.toFloat)

/-- Machine division. -/
def div (a b : Double) : Double := ofFloat (a.toFloat / b.toFloat)

/-- Machine equality: a NaN differs from everything and the zeros are equal. -/
def eq (a b : Double) : Bool := a.toFloat == b.toFloat

/-- Machine order: false when a NaN is involved. -/
def lt (a b : Double) : Bool := a.toFloat < b.toFloat

/-- Machine order: false when a NaN is involved. -/
def le (a b : Double) : Bool := a.toFloat ≤ b.toFloat

/-- The larger of two doubles; a NaN gives way to the other one. -/
def max (a b : Double) : Double :=
  if a.isNaN then b else if b.isNaN then a else if lt a b then b else a

/-- The smaller of two doubles; a NaN gives way to the other one. -/
def min (a b : Double) : Double :=
  if a.isNaN then b else if b.isNaN then a else if lt b a then b else a

/-- The remainder of truncated division; it has the sign of the dividend. -/
def rem (a b : Double) : Double :=
  if !a.isFinite || b.isNaN || b.isZero then nan
  else if !b.isFinite || a.isZero then a
  else
    let (m, q) := a.parts
    let (n, r) := b.parts
    let low := if q ≤ r then q else r
    let scaledA := m * Nat.pow 2 (q - low).toNat
    let scaledB := n * Nat.pow 2 (r - low).toNat
    let left := scaledA % scaledB
    if 0 ≤ low then ofRatio a.isNegative (left * Nat.pow 2 low.toNat) 1
    else ofRatio a.isNegative left (Nat.pow 2 (-low).toNat)

/-- The integral part of a finite double, toward zero. -/
def truncate (d : Double) : Int :=
  let (m, q) := d.parts
  let magnitude : Nat := if 0 ≤ q then m * Nat.pow 2 q.toNat else m / Nat.pow 2 (-q).toNat
  if d.isNegative then -(magnitude : Int) else magnitude

/-- Whether a finite double has no fractional part. -/
def isIntegral (d : Double) : Bool :=
  let (m, q) := d.parts
  if 0 ≤ q then true else m % Nat.pow 2 (-q).toNat == 0

/-- The largest integer that is not above a finite double. -/
def floorInt (d : Double) : Int :=
  let t := d.truncate
  if d.isNegative && !d.isIntegral then t - 1 else t

/-- The integer nearest to a finite double, halves away from zero. -/
def roundInt (d : Double) : Int :=
  let (m, q) := d.parts
  let magnitude : Nat :=
    if 0 ≤ q then m * Nat.pow 2 q.toNat
    else
      let den := Nat.pow 2 (-q).toNat
      (2 * m + den) / (2 * den)
  if d.isNegative then -(magnitude : Int) else magnitude

/-- A double with an integral value; a zero keeps the given sign. -/
def ofIntSigned (negative : Bool) (i : Int) : Double :=
  if i = 0 then withSign negative 0 else ofInt i

/-- Round toward negative infinity. -/
def floor (d : Double) : Double :=
  if d.isFinite then ofIntSigned d.isNegative d.floorInt else d

/-- Round toward positive infinity. -/
def ceil (d : Double) : Double :=
  neg (floor (neg d))

/-- Round to the nearest integer, halves away from zero. -/
def round (d : Double) : Double :=
  if d.isFinite then ofIntSigned d.isNegative d.roundInt else d

/-- Drop the fractional part. -/
def trunc (d : Double) : Double :=
  if d.isFinite then ofIntSigned d.isNegative d.truncate else d

/-- The integral part clamped to the range from `lo` to `hi`; a NaN gives zero. -/
def clampInt (lo hi : Int) (d : Double) : Int :=
  if d.isNaN then 0
  else if !d.isFinite then (if d.isNegative then lo else hi)
  else Max.max lo (Min.min hi d.truncate)

end Double

end Runbook
