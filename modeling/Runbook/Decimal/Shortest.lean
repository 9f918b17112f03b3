import Runbook.Decimal.Double
/-!
# The shortest decimal of a double

The digits by which a double is written: the fewest that read back as the same double and, of
those, the ones nearest to it.

* `roundingInterval` — the ends of the interval of numbers that round to `m * 2 ^ q`;
* `candidate?` — on the grid of decimals with a given last place, the neighbour of the value that
  lies in the interval, the nearer one if both do;
* `shortest` — the first hit on the grids of one to seventeen digits.
-/

namespace Runbook.Decimal

/-- The decimal `digits * 10 ^ exponent`. -/
structure Scaled where
  digits : Nat
  exponent : Int
deriving DecidableEq, Repr

/-- Four times a quotient `num / den`, so that half units of the significand stay integral. -/
structure Interval where
  low : Nat
  mid : Nat
  high : Nat
  den : Nat
  closed : Bool

/-- The numbers that round to `m * 2 ^ q`, as numerators over one denominator: the value and the
points half way to its neighbours, which belong to the interval when `m` is even. -/
def roundingInterval (m : Nat) (q : Int) : Interval :=
  let lowGap := if m = Nat.pow 2 52 ∧ -1074 < q then 1 else 2
  let scale := if 0 ≤ q then Nat.pow 2 q.toNat else 1
  { low := (4 * m - lowGap) * scale
    mid := 4 * m * scale
    high := (4 * m + 2) * scale
    den := if 0 ≤ q then 4 else 4 * Nat.pow 2 (-q).toNat
    closed := m % 2 == 0 }

/-- Whether `digits * unitNum / unitDen` lies in the interval. -/
def Interval.contains (i : Interval) (digits unitNum unitDen : Nat) : Bool :=
  let point := digits * unitNum * i.den
  if i.closed then i.low * unitDen ≤ point && point ≤ i.high * unitDen
  else i.low * unitDen < point && point < i.high * unitDen

/-- The neighbour of the value on the grid of multiples of `unitNum / unitDen` that lies in the
interval, the nearer one if both do. -/
def candidate? (i : Interval) (unitNum unitDen : Nat) : Option Nat :=
  let below := i.mid * unitDen / (i.den * unitNum)
  let above := below + 1
  let hitBelow := i.contains below unitNum unitDen && below != 0
  let hitAbove := i.contains above unitNum unitDen
  if hitBelow && hitAbove then
    let left := i.mid * unitDen - below * unitNum * i.den
    let right := above * unitNum * i.den - i.mid * unitDen
    some (if left ≤ right then below else above)
  else if hitBelow then some below
  else if hitAbove then some above
  else none

/-- The number of places before the point of `num / den`, counted down below one: the least `e`
with `num / den < 10 ^ e`. -/
def places (num den : Nat) : Int :=
  if den ≤ num then ((Nat.toDigits 10 (num / den)).length : Int)
  else go 400 num 0
where
  go : Nat → Nat → Int → Int
    | 0, _, e => e
    | fuel + 1, num, e => if den ≤ num * 10 then e else go fuel (num * 10) (e - 1)

/-- Try the grids with `n`, `n + 1`, … digits. -/
def search (i : Interval) (e : Int) : (tries n : Nat) → Scaled
  | 0, _ => ⟨0, 0⟩
  | tries + 1, n =>
    let last := e - n
    let unitNum := if 0 ≤ last then Nat.pow 10 last.toNat else 1
    let unitDen := if 0 ≤ last then 1 else Nat.pow 10 (-last).toNat
    match candidate? i unitNum unitDen with
    | some digits => ⟨digits, last⟩
    | none => search i e tries (n + 1)

/-- Move trailing zeros of the digits into the exponent. -/
def strip : Nat → Scaled → Scaled
  | 0, s => s
  | fuel + 1, s =>
    if s.digits ≠ 0 ∧ s.digits % 10 = 0 then strip fuel ⟨s.digits / 10, s.exponent + 1⟩ else s

/-- The shortest decimal that reads back as the magnitude of a finite double. -/
def shortest (d : Double) : Scaled :=
  if d.isZero then ⟨0, 0⟩
  else
    let (m, q) := d.parts
    let i := roundingInterval m q
    strip 20 (search i (places i.mid i.den) 17 1)

end Runbook.Decimal
