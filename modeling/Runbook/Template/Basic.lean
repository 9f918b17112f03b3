import Runbook.Value.Basic
/-!
# Templates

The tree of a template:

* `Expr` — a term with filters, which may be negated; terms are literals, references, arithmetic,
  comparisons, logic, tests, membership, concatenation, lists, calls and macro calls;
* `Node` — text, shown values, assignments, comments, raw text, conditions, loops, filtered
  sections, blocks, inclusions, macros and loop control;
* `Trim` — the trim markers of a tag: blanks are dropped before it, behind it, or both.

Argument lists are types of their own, so that trees are plain inductive data.
-/

namespace Runbook.Template

/-- Arithmetic operators. -/
inductive MathOp where
  | add | sub | mul | div | rem
deriving DecidableEq, Repr

/-- Multiplication, division and remainder bind tighter than addition and subtraction. -/
def MathOp.bindsTighter : MathOp → Bool
  | .add => false
  | .sub => false
  | _ => true

/-- Comparison operators. -/
inductive CompareOp where
  | eq | ne | lt | le | gt | ge
deriving DecidableEq, Repr

/-- Logical connectives. -/
inductive LogicOp where
  | or | and
deriving DecidableEq, Repr

mutual

/-- A term without filters. -/
inductive Term where
  | str (text : List Char)
  | int (value : Int)
  | double (value : Double)
  | bool (value : Bool)
  | ref (path : List Char)
  | math (op : MathOp) (lhs rhs : Expr)
  | compare (op : CompareOp) (lhs rhs : Expr)
  | logic (op : LogicOp) (lhs rhs : Expr)
  | test (negated : Bool) (path : List Char) (name : String) (args : Exprs)
  | member (negated : Bool) (item container : Expr)
  | concat (parts : Terms)
  | list (items : Exprs)
  | call (name : String) (args : Args)
  | macroCall (space name : String) (args : Args)

/-- A term, the filters it runs through, and whether the result is negated. -/
inductive Expr where
  | mk (term : Term) (negated : Bool) (filters : Filters)

/-- Filters in the order in which they apply. -/
inductive Filters where
  | nil
  | cons (name : String) (args : Args) (rest : Filters)

/-- Named arguments. -/
inductive Args where
  | nil
  | cons (name : String) (value : Expr) (rest : Args)

/-- Expressions one after the other. -/
inductive Exprs where
  | nil
  | cons (head : Expr) (rest : Exprs)

/-- Terms one after the other. -/
inductive Terms where
  | nil
  | cons (head : Term) (rest : Terms)

end

/-- A term on its own. -/
def Expr.ofTerm (t : Term) : Expr :=
  .mk t false .nil

/-- The term of an expression. -/
def Expr.term : Expr → Term
  | .mk t _ _ => t

/-- Replace the negation mark. -/
def Expr.withNegated (negated : Bool) : Expr → Expr
  | .mk t _ filters => .mk t negated filters

/-- The argument with a given name, the last one if it is repeated. -/
def Args.find? (name : String) : Args → Option Expr
  | .nil => none
  | .cons n e rest =>
    match rest.find? name with
    | some found => some found
    | none => if n = name then some e else none

/-- Trim markers of a tag. -/
structure Trim where
  left : Bool := false
  right : Bool := false
deriving DecidableEq, Repr

/-- A parameter of a macro, with its default value. -/
structure Param where
  name : String
  default? : Option Value

mutual

/-- A part of a template. -/
inductive Node where
  | text (text : List Char)
  | display (trim : Trim) (value : Expr)
  | assign (trim : Trim) (isGlobal : Bool) (name : String) (value : Expr)
  | comment (trim : Trim)
  | raw (start : Trim) (text : List Char) (stop : Trim)
  | cond (branches : Branches) (otherwise : Option (List Node)) (elseTrim stop : Trim)
  | loop (start : Trim) (key : Option String) (item : String) (source : Expr)
      (body : List Node) (empty : Option (List Node)) (stop : Trim)
  | filtered (start : Trim) (name : String) (args : Args) (body : List Node) (stop : Trim)
  | block (start : Trim) (name : String) (body : List Node) (stop : Trim)
  | inclusion (trim : Trim) (mayBeMissing : Bool)
  | macroDef (start : Trim) (name : String) (params : List Param) (body : List Node)
      (stop : Trim)
  | skip (trim : Trim)
  | leave (trim : Trim)

/-- The branches of a condition, each with its own tag. -/
inductive Branches where
  | nil
  | cons (trim : Trim) (condition : Expr) (body : List Node) (rest : Branches)

end

end Runbook.Template
