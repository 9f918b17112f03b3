import Runbook.Decimal.Double
/-!
# Expressions of conditions

* `Expr` — literals, names, lists, records, operators, connectives, membership, calls, names and
  calls qualified by a module, chains of properties, subscripts and method calls, conditionals,
  choices and closures;
* `Link` — one step of a chain; an optional step ends the chain at the unit;
* `Expr.names` — the variables that an expression mentions.
-/

namespace Runbook.Condition

/-- Operators on two evaluated operands. -/
inductive Operator where
  | add | sub | mul | div | rem | pow | shl | shr | bitAnd | bitOr | bitXor
  | eq | ne | lt | le | gt | ge | rangeTo | rangeThrough
deriving DecidableEq, Repr

/-- Operators on one evaluated operand. -/
inductive Sign where
  | negate | keep | invert
deriving DecidableEq, Repr

mutual

/-- An expression. -/
inductive Expr where
  | unit
  | bool (value : Bool)
  | int (value : Int)
  | double (value : Double)
  | char (c : Char)
  | str (text : String)
  | joined (parts : List Expr)
  | list (items : List Expr)
  | record (keys : List String) (values : List Expr)
  | name (name : String)
  | signed (sign : Sign) (operand : Expr)
  | binary (op : Operator) (lhs rhs : Expr)
  | member (negated : Bool) (item container : Expr)
  | and (lhs rhs : Expr)
  | or (lhs rhs : Expr)
  | coalesce (lhs rhs : Expr)
  | call (name : String) (args : List Expr)
  | qualified (args : List Expr)
  | chain (root : Expr) (links : List Link)
  | cond (condition yes no : Expr)
  | choose (subject : Expr) (cases : List Choice) (otherwise : Expr)
  | closure (params : List String) (body : Expr)

/-- A step of a chain. -/
inductive Link where
  | property (optional : Bool) (name : String)
  | subscript (optional : Bool) (index : Expr)
  | method (optional : Bool) (name : String) (args : List Expr)

/-- A case of a choice: the values it stands for, a further condition, and the result. -/
inductive Choice where
  | mk (values : List Expr) (guard result : Expr)

end

namespace Expr

mutual

/-- The variables that an expression mentions. -/
def names : Expr → List String
  | .name n => [n]
  | .joined parts => namesOfAll parts
  | .list items => namesOfAll items
  | .record _ values => namesOfAll values
  | .signed _ e => names e
  | .binary _ lhs rhs => names lhs ++ names rhs
  | .member _ item container => names item ++ names container
  | .and lhs rhs => names lhs ++ names rhs
  | .or lhs rhs => names lhs ++ names rhs
  | .coalesce lhs rhs => names lhs ++ names rhs
  | .call _ args => namesOfAll args
  | .qualified args => namesOfAll args
  | .chain root links => names root ++ namesOfLinks links
  | .cond c yes no => names c ++ (names yes ++ names no)
  | .choose subject cases otherwise => names subject ++ (namesOfCases cases ++ names otherwise)
  | .closure params body => (names body).filter fun n => !params.contains n
  | .unit | .bool _ | .int _ | .double _ | .char _ | .str _ => []
termination_by structural e => e

/-- The variables of several expressions. -/
def namesOfAll : List Expr → List String
  | [] => []
  | e :: rest => names e ++ namesOfAll rest
termination_by structural es => es

/-- The variables of the steps of a chain. -/
def namesOfLinks : List Link → List String
  | [] => []
  | link :: rest => namesOfLink link ++ namesOfLinks rest
termination_by structural links => links

/-- The variables of one step. -/
def namesOfLink : Link → List String
  | .property _ _ => []
  | .subscript _ index => names index
  | .method _ _ args => namesOfAll args
termination_by structural link => link

/-- The variables of the cases of a choice. -/
def namesOfCases : List Choice → List String
  | [] => []
  | c :: rest => namesOfCase c ++ namesOfCases rest
termination_by structural cases => cases

/-- The variables of one case. -/
def namesOfCase : Choice → List String
  | .mk values guard result => namesOfAll values ++ (names guard ++ names result)
termination_by structural c => c

end

/-- Whether an expression may stand beside a connective or decide a branch: constants of other types
may not. -/
def mayBeBool : Expr → Bool
  | .int _ | .double _ | .char _ | .str _ | .joined _ | .list _ | .record _ _ | .unit => false
  | _ => true

end Expr

end Runbook.Condition
