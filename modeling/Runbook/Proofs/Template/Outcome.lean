import Runbook.Proofs.Template.Form
/-!
# Values of actions

What a tree comes to when every call is evaluated on what its arguments come to.

* `Outcome` — a value, or nothing because a reference is missing, or a failure;
* `Outcome.truth`, `Outcome.negate`, `Outcome.filter`, `Outcome.compare` — what the calls make of
  it;
* `Form.outcome` — the outcome of a tree;
* `Form.Kept` — the trees whose text has the structure of the tree.

What is missing stays missing behind filters, and its negation is true.  What is missing or has
failed counts as false where it is joined.
-/

namespace Runbook.Template.Action

/-! ### Outcomes -/

/-- What a tree comes to. -/
inductive Outcome where
  | value (v : Value)
  | absent
  | failed

/-- The value, if there is one. -/
def Outcome.value? : Outcome → Option Value
  | value v => some v
  | _ => none

theorem Outcome.eq_of_value? {o : Outcome} {v : Value} (h : o.value? = some v) : o = value v := by
  cases o with
  | value w =>
    cases h
    rfl
  | absent => cases h
  | failed => cases h

/-- The result of a comparison; order is defined on numbers only. -/
def compare? (op : CompareOp) (a b : Value) : Option Bool :=
  match op, a, b with
  | .eq, a, b => some (compareValues true a b)
  | .ne, a, b => some (compareValues false a b)
  | op, .num a, .num b => some (compareNumbers op a.toDouble b.toDouble)
  | _, _, _ => none

namespace Outcome

/-- A value, unless there is none. -/
def ofOption : Option Value → Outcome
  | some v => value v
  | none => failed

/-- Whether an outcome counts as true. -/
def truth : Outcome → Bool
  | value v => v.truthy
  | absent => false
  | failed => false

/-- The negation of an outcome. -/
def negate : Outcome → Outcome
  | value v => value (.bool (!v.truthy))
  | absent => value (.bool true)
  | failed => failed

/-- What a filter makes of an outcome. -/
def filter (f? : Option Filter) : Outcome → Outcome
  | value v => ofOption (f?.bind fun f => f v [])
  | absent => absent
  | failed => failed

/-- The comparison of two outcomes, which have to be values. -/
def compare (op : CompareOp) : Outcome → Outcome → Outcome
  | value a, value b => ofOption ((compare? op a b).map .bool)
  | _, _ => failed

end Outcome

/-- The value of two joined truth values. -/
def joinTruth : LogicOp → Bool → Bool → Bool
  | .and, a, b => a && b
  | .or, a, b => a || b

namespace Form

/-- What a tree comes to: every call is evaluated on what its arguments come to. -/
def outcome (c : Context) (fs : Frames) : Form → Outcome
  | ref path =>
    match fs.lookup? c.vars path with
    | some v => .value v
    | none => .absent
  | truth b => .value (.bool b)
  | num _ n => .value (.num n)
  | str _ s => .value (.str (String.ofList s))
  | filtered arg name => (arg.outcome c fs).filter (c.filter? (String.ofList name))
  | compared op lhs rhs => (lhs.outcome c fs).compare op (rhs.outcome c fs)
  | negated arg => (arg.outcome c fs).negate
  | joined op lhs rhs =>
    .value (.bool (joinTruth op (lhs.outcome c fs).truth (rhs.outcome c fs).truth))
  | closed inner => inner.outcome c fs

/-- A group comes to what it holds, in parentheses or not. -/
theorem outcome_group (c : Context) (fs : Frames) (f : Form) :
    f.group.outcome c fs = f.outcome c fs := by
  unfold group
  split <;> rfl

/-! ### Trees that keep their structure -/

/-- Operands of comparisons and filters: nothing weaker than a filter stands bare in them. -/
def isTight : Form → Bool
  | compared _ _ _ => false
  | negated _ => false
  | joined _ _ _ => false
  | _ => true

/-- A comparison. -/
def isCompared : Form → Bool
  | compared _ _ _ => true
  | _ => false

/-- A negation. -/
def isNegated : Form → Bool
  | negated _ => true
  | _ => false

/-- The negation of a comparison. -/
def negatesCompared : Form → Bool
  | negated arg => arg.isCompared
  | _ => false

/-- Operands joined by `or`. -/
def isDisjunction : Form → Bool
  | joined .or _ _ => true
  | _ => false

/-- A literal, with filters or without. -/
def isLiteral : Form → Bool
  | truth _ => true
  | num _ _ => true
  | str _ _ => true
  | filtered arg _ => arg.isLiteral
  | closed inner => inner.isLiteral
  | _ => false

/-- A filtered literal, which may be negated. -/
def filtersLiteral : Form → Bool
  | filtered arg _ => arg.isLiteral
  | negated arg => arg.filtersLiteral
  | closed inner => inner.filtersLiteral
  | _ => false

/-- The operators of a connective bind at least as tightly as it needs. -/
def fitsIn (op : LogicOp) (f : Form) : Bool :=
  !f.filtersLiteral && match op with
    | .and => !f.isDisjunction
    | .or => true

/-- The trees whose text is read as it is meant. -/
def Kept : Form → Bool
  | ref path => (readBool path).isNone && path != ['n', 'o', 't']
  | truth _ => true
  | num _ _ => true
  | str _ _ => true
  | filtered arg name =>
    arg.isTight && arg.Kept && name != "safe".toList && name != "default".toList
  | compared _ lhs rhs => lhs.isTight && lhs.Kept && (rhs.isTight && rhs.Kept)
  | negated arg => (arg.isTight || arg.isCompared) && arg.Kept
  | joined op lhs rhs => lhs.fitsIn op && lhs.Kept && (rhs.fitsIn op && rhs.Kept)
  | closed inner => !inner.isNegated && inner.Kept

end Form

end Runbook.Template.Action
