import Runbook.Condition.Datum
/-!
# Operators of conditions

* `floatEq`, `floatLt`, `floatLe` — comparison of doubles up to a relative error of one unit in the
  last place;
* `wordOp?` — arithmetic of signed words, which refuses to overflow;
* `Datum.equal` — equality of data;
* `apply`, `applySign` — an operator on evaluated operands.

Operands of different types, numbers apart, are unequal and in no order; an operator that has no
meaning for its operands is a missing function.
-/

namespace Runbook.Condition

/-! ### Doubles -/

/-- The distance between one and the next double. -/
def epsilon : Double := Double.ofRatio false 1 (Nat.pow 2 52)

/-- The difference of two doubles relative to the larger one. -/
def relativeGap (x y : Double) : Double :=
  let larger :=
    if (Double.mul x y).isZero then Double.ofInt 1 else Double.max x.abs y.abs
  Double.div (Double.sub x y) larger

/-- Equality up to the relative error. -/
def floatEq (x y : Double) : Bool :=
  Double.le (relativeGap x y).abs epsilon

/-- Inequality beyond the relative error. -/
def floatNe (x y : Double) : Bool :=
  Double.lt epsilon (relativeGap x y).abs

/-- Less by more than the relative error. -/
def floatLt (x y : Double) : Bool :=
  Double.lt epsilon (relativeGap y x)

/-- Less, or equal up to the relative error. -/
def floatLe (x y : Double) : Bool :=
  Double.lt epsilon.neg (relativeGap y x)

/-- The power of two doubles. -/
def floatPow (x y : Double) : Double :=
  Double.ofFloat (x.toFloat.pow y.toFloat)

/-! ### Words -/

/-- The least signed word. -/
def minWord : Int := -(Int.pow 2 63)

/-- Whether an integer is a signed word. -/
def isWordRange (i : Int) : Bool :=
  minWord ≤ i && i < Int.pow 2 63

/-- An integer that has to be a signed word. -/
def checked (what : String) (i : Int) : Result Datum :=
  if isWordRange i then .ok (.int i) else .error (.arithmetic what)

/-- A word shifted to the left, dropping what leaves it; to the right for a negative distance. -/
def shiftLeft (i distance : Int) : Int :=
  if distance < 0 then Int.fdiv i (Int.pow 2 (min 64 distance.natAbs))
  else if 64 ≤ distance then 0
  else Int.bmod (i * Int.pow 2 distance.toNat) (Nat.pow 2 64)

/-- A word shifted to the right; to the left for a negative distance. -/
def shiftRight (i distance : Int) : Int :=
  shiftLeft i (-distance)

/-- The unsigned word with the same bits. -/
def bits (i : Int) : Nat :=
  (i % Int.pow 2 64).toNat

/-- The signed word with these bits. -/
def ofBits (n : Nat) : Int :=
  Int.bmod n (Nat.pow 2 64)

/-- A power whose exponent is a word. -/
def wordPow (i exponent : Int) : Result Datum :=
  if exponent < 0 then .error (.arithmetic "Integer raised to a negative power")
  else if Int.pow 2 32 ≤ exponent then .error (.arithmetic "Integer raised to too large an index")
  else if i = 0 ∨ i = 1 ∨ i = -1 ∨ exponent < 64 then
    let exponent := if i = 0 ∨ i = 1 ∨ i = -1 then
      (if exponent = 0 then 0 else 2 - exponent % 2) else exponent
    checked "Exponential overflow" (Int.pow i exponent.toNat)
  else .error (.arithmetic "Exponential overflow")

/-- Operators on words. -/
def wordOp : Operator → Int → Int → Result Datum
  | .add, a, b => checked "Addition overflow" (a + b)
  | .sub, a, b => checked "Subtraction overflow" (a - b)
  | .mul, a, b => checked "Multiplication overflow" (a * b)
  | .div, a, b =>
    if b = 0 then .error (.arithmetic "Division by zero")
    else checked "Division overflow" (Int.tdiv a b)
  | .rem, a, b =>
    if b = 0 ∨ (a = minWord ∧ b = -1) then
      .error (.arithmetic "Modulo division by zero or overflow")
    else .ok (.int (Int.tmod a b))
  | .pow, a, b => wordPow a b
  | .shl, a, b => .ok (.int (shiftLeft a b))
  | .shr, a, b => .ok (.int (shiftRight a b))
  | .bitAnd, a, b => .ok (.int (ofBits (bits a &&& bits b)))
  | .bitOr, a, b => .ok (.int (ofBits (bits a ||| bits b)))
  | .bitXor, a, b => .ok (.int (ofBits (bits a ^^^ bits b)))
  | .eq, a, b => .ok (.bool (a == b))
  | .ne, a, b => .ok (.bool (a != b))
  | .lt, a, b => .ok (.bool (a < b))
  | .le, a, b => .ok (.bool (a ≤ b))
  | .gt, a, b => .ok (.bool (b < a))
  | .ge, a, b => .ok (.bool (b ≤ a))
  | .rangeTo, a, b => .ok (.range a b false)
  | .rangeThrough, a, b => .ok (.range a b true)

/-- Operators on doubles. -/
def floatOp : Operator → Double → Double → Result Datum
  | .add, x, y => .ok (.double (Double.add x y))
  | .sub, x, y => .ok (.double (Double.sub x y))
  | .mul, x, y => .ok (.double (Double.mul x y))
  | .div, x, y => .ok (.double (Double.div x y))
  | .rem, x, y => .ok (.double (Double.rem x y))
  | .pow, x, y => .ok (.double (floatPow x y))
  | .eq, x, y => .ok (.bool (floatEq x y))
  | .ne, x, y => .ok (.bool (floatNe x y))
  | .lt, x, y => .ok (.bool (floatLt x y))
  | .le, x, y => .ok (.bool (floatLe x y))
  | .gt, x, y => .ok (.bool (floatLt y x))
  | .ge, x, y => .ok (.bool (floatLe y x))
  | _, _, _ => .error .missingFunction

/-! ### Other types -/

/-- The answer of a comparison to an order. -/
def compareBy? : Operator → Ordering → Option Bool
  | .eq, o => some (o == .eq)
  | .ne, o => some (o != .eq)
  | .lt, o => some (o == .lt)
  | .le, o => some (o != .gt)
  | .gt, o => some (o == .gt)
  | .ge, o => some (o != .lt)
  | _, _ => none

/-- The order of two texts by their code points. -/
def compareTexts (a b : String) : Ordering :=
  if a < b then .lt else if a = b then .eq else .gt

/-- Comparisons of texts, their sum, and a text without the occurrences of another one. -/
def textOp (op : Operator) (a b : String) : Result Datum :=
  match op, compareBy? op (compareTexts a b) with
  | _, some answer => .ok (.bool answer)
  | .add, none => .ok (.str (a ++ b))
  | .sub, none => .ok (.str (if b.isEmpty then a else Text.replaceString a b ""))
  | _, none => .error .missingFunction

/-- Operators on truth values. -/
def boolOp (op : Operator) (a b : Bool) : Result Datum :=
  match op, compareBy? op (compare a.toNat b.toNat) with
  | _, some answer => .ok (.bool answer)
  | .bitAnd, none => .ok (.bool (a && b))
  | .bitOr, none => .ok (.bool (a || b))
  | .bitXor, none => .ok (.bool (a != b))
  | _, none => .error .missingFunction

/-- Comparison of operands of different types. -/
def mismatchOp : Operator → Result Datum
  | .ne => .ok (.bool true)
  | .eq | .lt | .le | .gt | .ge => .ok (.bool false)
  | _ => .error .missingFunction

/-- The text of a character. -/
def charText (c : Char) : String :=
  String.ofList [c]

mutual

/-- Whether two data are equal. -/
def Datum.equal : Datum → Datum → Result Bool
  | .unit, .unit => .ok true
  | .bool a, .bool b => .ok (a == b)
  | .int a, .int b => .ok (a == b)
  | .double a, .double b => .ok (floatEq a b)
  | .int a, .double b => .ok (floatEq (Double.ofInt a) b)
  | .double a, .int b => .ok (floatEq a (Double.ofInt b))
  | .char a, .char b => .ok (a == b)
  | .str a, .str b => .ok (a == b)
  | .char a, .str b => .ok (charText a == b)
  | .str a, .char b => .ok (a == charText b)
  | .list a, .list b => if a.length = b.length then equalItems a b else .ok false
  | .record a, .record b => if a.length = b.length then equalFields a b else .ok false
  | .range a b c, .range d e f => .ok (a == d && b == e && c == f)
  | .function _ _ _, .function _ _ _ => .error .missingFunction
  | _, _ => .ok false
termination_by structural d => d

/-- Whether lists are equal item by item. -/
def equalItems : List Datum → List Datum → Result Bool
  | a :: as, b :: bs => do if ← Datum.equal a b then equalItems as bs else pure false
  | _, _ => .ok true
termination_by structural ds => ds

/-- Whether records hold equal data under the same keys. -/
def equalFields : List (String × Datum) → List (String × Datum) → Result Bool
  | [], _ => .ok true
  | entry :: rest, other => do
    if ← equalEntry entry other then equalFields rest other else pure false
termination_by structural fields => fields

/-- Whether a record holds an equal datum under the same key. -/
def equalEntry : String × Datum → List (String × Datum) → Result Bool
  | (k, d), other =>
    match Datum.field? k other with
    | some e => Datum.equal d e
    | none => .ok false
termination_by structural entry => entry

end

/-- Operators on two data of one type that is neither a number, a text nor a truth value. -/
def sameTypeOp (op : Operator) (a b : Datum) : Result Datum :=
  match op with
  | .eq => (a.equal b).map .bool
  | .ne => (a.equal b).map fun e => .bool (!e)
  | .add =>
    match a, b with
    | .list xs, .list ys => .ok (.list (xs ++ ys))
    | .record xs, .record ys =>
      .ok (.record (ys.foldl (fun acc entry => Datum.setField entry.1 entry.2 acc) xs))
    | _, _ => .error .missingFunction
  | _ =>
    match a with
    | .unit => if (compareBy? op .eq).isSome then .ok (.bool false) else .error .missingFunction
    | _ => .error .missingFunction

/-- An operator on evaluated operands. -/
def apply (op : Operator) (a b : Datum) : Result Datum :=
  match a, b with
  | .int i, .int j => wordOp op i j
  | .double x, .double y => floatOp op x y
  | .int i, .double y => floatOp op (Double.ofInt i) y
  | .double x, .int j => floatOp op x (Double.ofInt j)
  | .bool p, .bool q => boolOp op p q
  | .str s, .str t => textOp op s t
  | .char c, .char d =>
    match op with
    | .sub => .error .missingFunction
    | op => textOp op (charText c) (charText d)
  | .char c, .str t =>
    match op with
    | .sub => .error .missingFunction
    | op => textOp op (charText c) t
  | .str s, .char d => textOp op s (charText d)
  | .str s, d =>
    match op with
    | .add => .ok (.str (s ++ d.shown))
    | op => mismatchOp op
  | d, .str s =>
    match op with
    | .add => .ok (.str (d.shown ++ s))
    | op => mismatchOp op
  | a, b => if a.sameType b then sameTypeOp op a b else mismatchOp op

/-- A sign before an evaluated operand. -/
def applySign : Sign → Datum → Result Datum
  | .negate, .int i => checked "Negation overflow" (-i)
  | .negate, .double d => .ok (.double d.neg)
  | .keep, .int i => .ok (.int i)
  | .keep, .double d => .ok (.double d)
  | .invert, .bool b => .ok (.bool (!b))
  | _, _ => .error .missingFunction

end Runbook.Condition
