import Runbook.Condition.ExprReader
import Runbook.Condition.Library
import Runbook.Condition.Quotes
/-!
# Evaluation of conditions

The value of an expression in a scope:

* `Helper` — a function supplied by the caller, on values;
* `Env` — the helpers, and how closures are called and texts evaluated;
* `runSteps` — a chain of properties, subscripts and calls, and what it leaves of the datum it
  starts from;
* `evalExpr` — the datum of an expression, and the scope that remains, since some functions change
  the variable they are called on;
* `evaluate` — a condition in a namespace.

Functions of the language go before helpers of the same name when the types of the arguments fit.
Closures and evaluated texts nest to a bounded depth.
-/

namespace Runbook.Condition

/-- A function on values that a caller supplies. -/
abbrev Helper := List Value → Except String Value

/-- Helpers by name. -/
abbrev Helpers := List (String × Helper)

/-- A datum and the scope behind it. -/
abbrev Outcome := Result (Datum × Scope)

/-- What evaluation refers to. -/
structure Env where
  helpers : Helpers
  invoke : Invoke
  evalText : List Char → Scope → Outcome

/-! ### Scopes -/

/-- The datum of a variable. -/
def Scope.find (name : String) (s : Scope) : Result Datum :=
  match s.lookup name with
  | some d => .ok d
  | none => .error .missingVariable

/-- Replace the datum of a variable. -/
def Scope.assign (name : String) (d : Datum) : Scope → Scope
  | [] => []
  | (n, e) :: rest => if n = name then (n, d) :: rest else (n, e) :: Scope.assign name d rest

theorem Scope.lookup_cons (name other : String) (d : Datum) (s : Scope) :
    List.lookup other ((name, d) :: s) = if other = name then some d else s.lookup other := by
  by_cases h : other = name
  · subst h
    simp
  · have hname : (other == name) = false := beq_false_of_ne h
    simp only [List.lookup_cons, hname, if_neg h]

theorem Scope.lookup_assign (name other : String) (d : Datum) (s : Scope) :
    (s.assign name d).lookup other
      = if other = name then (s.lookup other).map fun _ => d else s.lookup other := by
  induction s with
  | nil => simp [Scope.assign]
  | cons entry rest ih =>
    obtain ⟨n, e⟩ := entry
    by_cases hn : n = name
    · subst hn
      by_cases ho : other = n <;> simp [Scope.assign, Scope.lookup_cons, ho]
    · by_cases ho : other = n
      · subst ho
        simp [Scope.assign, hn]
      · rw [Scope.assign, if_neg hn, Scope.lookup_cons, if_neg ho, ih, Scope.lookup_cons,
          if_neg ho]

/-! ### Calls -/

/-- The most arguments a helper takes. -/
def maxHelperArgs : Nat := 4

/-- Call a helper. -/
def callHelper (env : Env) (name : String) (args : List Datum) : Result Datum :=
  match env.helpers.lookup name with
  | none => .error .missingFunction
  | some helper =>
    if maxHelperArgs < args.length then .error .missingFunction
    else
      match Datum.toItems? args with
      | none => .error .outputType
      | some values =>
        match helper values with
        | .ok v => .ok (.ofValue v)
        | .error message => .error (.raised message)

/-- Call a function of the language or a helper: its result and what is left of its first
argument. -/
def callNamed (env : Env) (name : String) (target : Datum) (args : List Datum) :
    Result (Datum × Datum) :=
  match update? name target args with
  | some found => .ok found
  | none =>
    match native? env.invoke name (target :: args) with
    | some result => result.map fun d => (d, target)
    | none => (callHelper env name (target :: args)).map fun d => (d, target)

/-- Call a method: on a record also a function that it holds. -/
def callMethod (env : Env) (name : String) (target : Datum) (args : List Datum) :
    Result (Datum × Datum) :=
  match target, name with
  | .function _ _ _, "call" => (env.invoke target args).map fun d => (d, target)
  | _, "type_of" =>
    if args.isEmpty then .ok (.str target.typeWord, target) else .error .missingFunction
  | _, "is_shared" => .ok (.bool false, target)
  | .record fields, name =>
    match Datum.field? name fields with
    | some (.function params body captured) =>
      (env.invoke (.function params body captured) args).map fun d => (d, target)
    | _ => callNamed env name target args
  | _, name => callNamed env name target args

/-! ### Chains -/

/-- A step of a chain whose arguments are evaluated. -/
inductive Step where
  | property (optional : Bool) (name : String)
  | subscript (optional : Bool) (index : Datum)
  | method (optional : Bool) (name : String) (args : List Datum)

/-- Whether a step ends the chain at the unit. -/
def Step.isOptional : Step → Bool
  | .property optional _ => optional
  | .subscript optional _ => optional
  | .method optional _ _ => optional

/-- Whether a datum is the unit. -/
def Datum.isUnit : Datum → Bool
  | .unit => true
  | _ => false

/-- Put a changed part back. -/
def Datum.putBack (d : Datum) (part : Datum) : Step → Datum
  | .property _ name =>
    match d with
    | .record fields =>
      if (Datum.field? name fields).isSome then .record (Datum.setField name part fields) else d
    | d => d
  | .subscript _ index =>
    match d, index with
    | .list items, .int i =>
      match place? items.length i with
      | some at_ => .list (items.set at_ part)
      | none => d
    | .record fields, .str key =>
      if (Datum.field? key fields).isSome then .record (Datum.setField key part fields) else d
    | d, _ => d
  | .method _ _ _ => d

/-- The datum at the end of a chain, and what the chain leaves of its start. -/
def runSteps (env : Env) : List Step → Datum → Result (Datum × Datum)
  | [], d => .ok (d, d)
  | step :: rest, d =>
    if step.isOptional && d.isUnit then .ok (.unit, d)
    else
      match step with
      | .property _ name => do
        let part ← property? env.invoke d name
        let (result, part) ← runSteps env rest part
        pure (result, d.putBack part step)
      | .subscript _ index => do
        let part ← index? d index
        let (result, part) ← runSteps env rest part
        pure (result, d.putBack part step)
      | .method _ name args => do
        let (result, d) ← callMethod env name d args
        let (result, _) ← runSteps env rest result
        pure (result, d)

/-! ### Expressions -/

/-- The variables that a closure takes with it. -/
def capture (s : Scope) : List String → Result Scope
  | [] => .ok []
  | name :: rest => do
    let d ← s.find name
    let others ← capture s rest
    pure ((name, d) :: others)

/-- A truth value that decides a branch. -/
def needBool : Datum → Result Bool
  | .bool b => .ok b
  | _ => .error .dataType

/-- Whether a value of a case stands for a subject. -/
def matchesCase (value subject : Datum) : Bool :=
  match value, subject with
  | .range start stop closed, .int i => start ≤ i && (if closed then i ≤ stop else i < stop)
  | value, subject =>
    value.sameType subject &&
      match value.equal subject with
      | .ok b => b
      | .error _ => false

/-- Functions that only the language itself can provide; none for all others. -/
def callWord? (env : Env) (name : String) (args : List Datum) (s : Scope) : Option Outcome :=
  match name, args with
  | "type_of", [d] => some (.ok (.str d.typeWord, s))
  | "is_shared", [_] => some (.ok (.bool false, s))
  | "is_def_var", [.str n] => some (.ok (.bool (s.lookup n).isSome, s))
  | "is_def_fn", [.str _, .int _] => some (.ok (.bool false, s))
  | "print", [_] => some (.ok (.unit, s))
  | "debug", [_] => some (.ok (.unit, s))
  | "call", f :: args => some ((env.invoke f args).map fun d => (d, s))
  | "eval", [.str source] => some (env.evalText source.toList s)
  | "eval", [_] => some (.error .dataType)
  | _, _ => none

/-- Call a function by its name; the first argument may be a variable that changes. -/
def callFunction (env : Env) (name : String) (variable_ : Option String) (args : List Datum)
    (s : Scope) : Outcome :=
  match callWord? env name args s with
  | some outcome => outcome
  | none =>
    match args with
    | [] =>
      match native? env.invoke name [] with
      | some result => result.map fun d => (d, s)
      | none => (callHelper env name []).map fun d => (d, s)
    | target :: rest => do
      let (result, target) ← callNamed env name target rest
      match variable_ with
      | some n => pure (result, s.assign n target)
      | none => pure (result, s)

/-- Whether a container holds an item. -/
def memberOf (env : Env) (negated : Bool) (item container : Datum) : Result Datum := do
  let (found, _) ← callNamed env "contains" container [item]
  if negated then applySign .invert found else pure found

mutual

/-- The datum of an expression, and the scope behind it. -/
def evalExpr (env : Env) : Expr → Scope → Outcome
  | .unit, s => .ok (.unit, s)
  | .bool b, s => .ok (.bool b, s)
  | .int i, s => .ok (.int i, s)
  | .double d, s => .ok (.double d, s)
  | .char c, s => .ok (.char c, s)
  | .str t, s => .ok (.str t, s)
  | .joined parts, s => do
    let (ds, s) ← evalAll env parts s
    pure (.str (String.join (ds.map Datum.shown)), s)
  | .list items, s => do
    let (ds, s) ← evalAll env items s
    pure (.list ds, s)
  | .record keys values, s => do
    let (ds, s) ← evalAll env values s
    pure (.record ((keys.zip ds).foldl (fun acc kd => Datum.setField kd.1 kd.2 acc) []), s)
  | .name n, s => do
    let d ← s.find n
    pure (d, s)
  | .signed sign e, s => do
    let (d, s) ← evalExpr env e s
    let d ← applySign sign d
    pure (d, s)
  | .binary op lhs rhs, s => do
    let (a, s) ← evalExpr env lhs s
    let (b, s) ← evalExpr env rhs s
    let d ← apply op a b
    pure (d, s)
  | .member negated item (.name n), s => do
    let (item, s) ← evalExpr env item s
    let container ← s.find n
    let d ← memberOf env negated item container
    pure (d, s)
  | .member negated item container, s => do
    let (container, s) ← evalExpr env container s
    let (item, s) ← evalExpr env item s
    let d ← memberOf env negated item container
    pure (d, s)
  | .and lhs rhs, s => do
    let (a, s) ← evalExpr env lhs s
    if ← needBool a then
      let (b, s) ← evalExpr env rhs s
      let b ← needBool b
      pure (.bool b, s)
    else pure (.bool false, s)
  | .or lhs rhs, s => do
    let (a, s) ← evalExpr env lhs s
    if ← needBool a then pure (.bool true, s)
    else
      let (b, s) ← evalExpr env rhs s
      let b ← needBool b
      pure (.bool b, s)
  | .coalesce lhs rhs, s => do
    let (a, s) ← evalExpr env lhs s
    if a.isUnit then evalExpr env rhs s else pure (a, s)
  | .call name (.name n :: rest), s => do
    let (ds, s) ← evalAll env rest s
    let d ← s.find n
    callFunction env name (some n) (d :: ds) s
  | .call name args, s => do
    let (ds, s) ← evalAll env args s
    callFunction env name none ds s
  | .qualified args, s => do
    let _ ← evalAll env args s
    throw .missingModule
  | .chain (.name n) links, s => do
    let (steps, s) ← evalLinks env links s
    let d ← s.find n
    let (result, d) ← runSteps env steps d
    pure (result, s.assign n d)
  | .chain root links, s => do
    let (steps, s) ← evalLinks env links s
    let (d, s) ← evalExpr env root s
    let (result, _) ← runSteps env steps d
    pure (result, s)
  | .cond condition yes no, s => do
    let (c, s) ← evalExpr env condition s
    if ← needBool c then evalExpr env yes s else evalExpr env no s
  | .choose subject cases otherwise, s => do
    let (d, s) ← evalExpr env subject s
    evalCases env d (evalExpr env otherwise) cases s
  | .closure params body, s => do
    let captured ← capture s ((Expr.closure params body).names.eraseDups)
    pure (.function params body captured, s)
termination_by structural e => e

/-- The data of several expressions, from left to right. -/
def evalAll (env : Env) : List Expr → Scope → Result (List Datum × Scope)
  | [], s => .ok ([], s)
  | e :: rest, s => do
    let (d, s) ← evalExpr env e s
    let (ds, s) ← evalAll env rest s
    pure (d :: ds, s)
termination_by structural es => es

/-- The steps of a chain with their arguments. -/
def evalLinks (env : Env) : List Link → Scope → Result (List Step × Scope)
  | [], s => .ok ([], s)
  | link :: rest, s => do
    let (step, s) ← evalLink env link s
    let (steps, s) ← evalLinks env rest s
    pure (step :: steps, s)
termination_by structural links => links

/-- One step with its arguments. -/
def evalLink (env : Env) : Link → Scope → Result (Step × Scope)
  | .property optional name, s => .ok (.property optional name, s)
  | .subscript optional index, s => do
    let (d, s) ← evalExpr env index s
    pure (.subscript optional d, s)
  | .method optional name args, s => do
    let (ds, s) ← evalAll env args s
    pure (.method optional name ds, s)
termination_by structural link => link

/-- The first case that fits, or what stands behind them all. -/
def evalCases (env : Env) (subject : Datum) (otherwise : Scope → Outcome) :
    List Choice → Scope → Outcome
  | [], s => otherwise s
  | c :: rest, s => do
    let (found, s) ← evalCase env subject c s
    match found with
    | some d => pure (d, s)
    | none => evalCases env subject otherwise rest s
termination_by structural cases => cases

/-- The result of a case, if it fits. -/
def evalCase (env : Env) (subject : Datum) : Choice → Scope → Result (Option Datum × Scope)
  | .mk values guard result, s => do
    let (ds, s) ← evalAll env values s
    if ds.any fun d => matchesCase d subject then
      let (g, s) ← evalExpr env guard s
      if ← needBool g then
        let (d, s) ← evalExpr env result s
        pure (some d, s)
      else pure (none, s)
    else pure (none, s)
termination_by structural c => c

end

/-! ### Depth -/

/-- A failure inside an evaluated text. -/
def Failure.insideText : Failure → Failure
  | .raised message => .raised (message ++ " in call to function 'eval'")
  | f => f

/-- The environment in which calls may nest to a depth. -/
def envAt (helpers : Helpers) : (depth : Nat) → Env
  | 0 => { helpers, invoke := fun _ _ => .error .tooDeep, evalText := fun _ _ => .error .tooDeep }
  | depth + 1 =>
    let env := envAt helpers depth
    { helpers
      invoke := fun f args =>
        match f with
        | .function params body captured =>
          if params.length = args.length then
            (evalExpr env body (params.zip args ++ captured)).map Prod.fst
          else .error .missingFunction
        | _ => .error .missingFunction
      evalText := fun cs s =>
        match Expr.ofChars? cs with
        | some e => (evalExpr env e s).mapError Failure.insideText
        | none => .error .unreadable }

/-- The depth to which calls may nest. -/
def callDepth : Nat := 64

/-! ### Conditions -/

/-- Why a condition gives no answer: it cannot be evaluated, or its result is no truth value. -/
inductive Fault where
  | evaluation (message : String)
  | definition (message : String)
deriving DecidableEq, Repr

/-- The variables of a namespace. -/
def scopeOf (vars : Namespace) : Scope :=
  Datum.ofFields vars

/-- A variable has the datum of its entry. -/
theorem lookup_scopeOf (name : String) (vars : Namespace) :
    (scopeOf vars).lookup name = (vars.get? name).map Datum.ofValue := by
  induction vars with
  | nil => rfl
  | cons entry rest ih =>
    obtain ⟨k, v⟩ := entry
    change (Datum.ofFields rest).lookup name = _ at ih
    show List.lookup name ((k, Datum.ofValue v) :: Datum.ofFields rest) = _
    rw [Scope.lookup_cons, Fields.get?, ih]
    by_cases h : k = name
    · rw [if_pos h, if_pos h.symm, Option.map_some]
    · rw [if_neg h, if_neg (Ne.symm h)]

/-- The datum of an expression in a namespace. -/
def evalChars (helpers : Helpers) (vars : Namespace) (cs : List Char) : Result Datum :=
  match Expr.ofChars? (doubleQuoted cs) with
  | some e => (evalExpr (envAt helpers callDepth) e (scopeOf vars)).map Prod.fst
  | none => .error .unreadable

/-- Whether a condition holds in a namespace. -/
def evaluate (helpers : Helpers) (expression : String) (vars : Namespace) : Except Fault Bool :=
  match evalChars helpers vars expression.toList with
  | .ok (.bool b) => .ok b
  | .ok d => .error (.definition ("requires return type must be bool, got " ++ d.typeName))
  | .error failure =>
    .error (.evaluation
      ("unable to evaluate " ++ Text.quoted expression ++ ": " ++ failure.message))

end Runbook.Condition
