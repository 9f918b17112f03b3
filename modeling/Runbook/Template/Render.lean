import Runbook.Template.Filter
import Runbook.Template.Reader
/-!
# Rendering

The value of an expression and the text of a template.  Rendering fails as a whole when any part
that is reached fails: a missing reference, an unknown filter, arithmetic on a text.

* `Context` — the namespace, the filters, and the macros of the template;
* `evalExpr`, `evalTruth`, `evalNumber` — an expression as a value, as a condition and as a number;
* `renderNodes` — parts in order, with the frames that declarations change;
* `render?` — a whole template in a namespace.

A negated condition built from comparisons or connectives is negated once where it decides a
branch, and twice, that is not at all, where it is shown.
-/

namespace Runbook.Template

/-- What an expression can refer to. -/
structure Context where
  vars : Namespace
  filter? : String → Option Filter
  callMacro? : String → Named → Option (List Char) := fun _ _ => none

/-! ### Numbers -/

/-- An integer result in the range of signed words. -/
def signedResult? (i : Int) : Option (Option Number) :=
  if Number.minInt ≤ i ∧ i < Number.signedBound then some (some (.int i)) else none

/-- An integer result in the range of unsigned words. -/
def unsignedResult? (i : Int) : Option (Option Number) :=
  if 0 ≤ i ∧ i < Number.unsignedBound then some (some (.int i)) else none

/-- A double, unless it is infinite or a NaN. -/
def finite? (d : Double) : Option Number :=
  if d.isFinite then some (.double d) else none

/-- An operation that is exact on integers and refuses to overflow. -/
def exactOp? (ints : Int → Int → Int) (doubles : Double → Double → Double) (a b : Number) :
    Option (Option Number) :=
  match a.signed?, b.signed? with
  | some i, some j => signedResult? (ints i j)
  | _, _ =>
    match a.nat?, b.nat? with
    | some m, some n => unsignedResult? (ints m n)
    | _, _ => some (finite? (doubles a.toDouble b.toDouble))

/-- A quotient, which is an integer when it is integral. -/
def quotient (a b : Double) : Option Number :=
  let r := Double.div a b
  if r.isNaN then none
  else if r.isFinite && r.isIntegral then
    some (.int (r.clampInt Number.minInt (Number.signedBound - 1)))
  else finite? r

/-- Arithmetic; the inner option is missing for a result that is no number. -/
def applyMath? : MathOp → Number → Number → Option (Option Number)
  | .add, a, b => exactOp? (· + ·) Double.add a b
  | .sub, a, b => exactOp? (· - ·) Double.sub a b
  | .mul, a, b => exactOp? (· * ·) Double.mul a b
  | .div, a, b => some (quotient a.toDouble b.toDouble)
  | .rem, a, b =>
    match a, b with
    | .int i, .int j => if j = 0 then none else some (some (.int (Int.tmod i j)))
    | a, b => some (finite? (Double.rem a.toDouble b.toDouble))

/-- Order of numbers, as doubles. -/
def compareNumbers : CompareOp → Double → Double → Bool
  | .lt, a, b => Double.lt a b
  | .le, a, b => Double.le a b
  | .gt, a, b => Double.lt b a
  | .ge, a, b => Double.le b a
  | .eq, a, b => Double.eq a b
  | .ne, a, b => !Double.eq a b

/-- Equality of values: numbers by their doubles, other values by their structure; a number and
another value are neither equal nor unequal. -/
def compareValues (isEq : Bool) : Value → Value → Bool
  | .num a, .num b => Double.eq a.toDouble b.toDouble == isEq
  | .num _, _ => false
  | _, .num _ => false
  | a, b => Value.same a b == isEq

/-- Membership in a list, a text or the keys of a record. -/
def memberOf? (item : Value) : Value → Option Bool
  | .arr items => some (items.any (Value.same item))
  | .str s => item.str?.map fun part => Text.contains part.toList s.toList
  | .obj fields => item.str?.map fun key => Fields.has key fields
  | _ => none

/-! ### Expressions -/

/-- Whether the first filter gives a default value. -/
def Filters.startsWithDefault : Filters → Bool
  | .cons name _ _ => name == "default"
  | .nil => false

/-- Whether there is no filter. -/
def Filters.isNil : Filters → Bool
  | .nil => true
  | .cons _ _ _ => false

/-- Whether an argument has this name. -/
def Args.has (name : String) : Args → Bool
  | .nil => false
  | .cons n _ rest => n == name || rest.has name

/-- A connective or a comparison. -/
def Term.isLogical : Term → Bool
  | .logic _ _ _ => true
  | .compare _ _ _ => true
  | _ => false

/-- A reference. -/
def Term.isRef : Term → Bool
  | .ref _ => true
  | _ => false

/-- Terms that decide a condition as numbers. -/
def Term.isNumeric : Term → Bool
  | .math _ _ _ => true
  | .int _ => true
  | .double _ => true
  | _ => false

/-- Terms that can be the source of a loop. -/
def Term.isSource : Term → Bool
  | .ref _ => true
  | .call _ _ => true
  | .list _ => true
  | _ => false

/-- The value of a reference before its filters: a missing or null one gives way to the default
value. -/
def refValue? (found default? : Option Value) (hasDefault : Bool) : Option Value :=
  match found with
  | some .null => if hasDefault then default? else found
  | some v => some v
  | none => if hasDefault then default? else none

/-- Negate a value. -/
def negateIf (negated : Bool) (v : Value) : Value :=
  if negated then .bool (!v.truthy) else v

/-- The result of a number: what is none is shown as a text. -/
def numberValue : Option Number → Value
  | some n => .num n
  | none => .str "NaN"

/-- The value of a term with filters and negation. -/
def finish? (t : Term) (negated : Bool) (filters : Filters) (base default? : Option Value)
    (apply : Value → Option Value) : Option Value :=
  if t.isRef then
    match refValue? base default? filters.startsWithDefault with
    | some v => (apply v).map (negateIf negated)
    | none =>
      if base.isNone && negated && !filters.startsWithDefault then some (.bool true) else none
  else (base.bind apply).map (negateIf negated)

/-- The text of a part of a concatenation. -/
def concatText? : Value → Option (List Char)
  | .str s => some s.toList
  | .num n => some n.text.toList
  | _ => none

/-- A numeral with a point in a concatenation, which loses the point when it is integral. -/
def literalText? : Term → Option (List Char)
  | .double d => some (Value.shownNumber (.double d)).toList
  | _ => none

/-- A term that is no reference, number or comparison as a condition: a joined text must not be
negated, and a call must give a truth value. -/
def plainTruth? (t : Term) (negated : Bool) (base : Option Value) (apply : Value → Option Value) :
    Option Bool :=
  match t with
  | .concat _ =>
    (base.bind apply).bind fun v =>
      if negated then none else v.str?.map fun s => !s.isEmpty
  | .call _ _ =>
    base.bind fun v =>
      match v with
      | .bool b => some (b != negated)
      | _ => none
  | _ => base.map fun v => v.truthy != negated

mutual

/-- The value of an expression. -/
def evalExpr (c : Context) (fs : Frames) : Expr → Option Value
  | .mk t negated filters =>
    let base : Option Value :=
      if t.isLogical then (termTruth c fs t).map fun b => .bool (b != negated)
      else if t.isNumeric then (termNumber c fs t).map numberValue
      else termValue c fs t
    finish? t negated filters base (defaultValue c fs filters) (applyFilters c fs filters)
termination_by structural e => e

/-- An expression as a condition. -/
def evalTruth (c : Context) (fs : Frames) : Expr → Option Bool
  | .mk t negated filters =>
    if t.isRef then
      let v := finish? t negated filters (termValue c fs t) (defaultValue c fs filters)
        (applyFilters c fs filters)
      let truth := (v.map Value.truthy).getD false
      some truth
    else if t.isNumeric then
      (termNumber c fs t).map fun n =>
        let truth : Bool :=
          match n with
          | some n => !n.toDouble.isZero
          | none => false
        truth != negated
    else if t.isLogical then (termTruth c fs t).map (· != negated)
    else plainTruth? t negated (termValue c fs t) (applyFilters c fs filters)
termination_by structural e => e

/-- An expression as a number; the inner option is missing for what is no number. -/
def evalNumber (c : Context) (fs : Frames) : Expr → Option (Option Number)
  | .mk t negated filters =>
    if filters.isNil then termNumber c fs t
    else
      let base : Option Value :=
        if t.isLogical then (termTruth c fs t).map fun b => .bool (b != negated)
        else if t.isNumeric then (termNumber c fs t).map numberValue
        else termValue c fs t
      let v := finish? t negated filters base (defaultValue c fs filters)
        (applyFilters c fs filters)
      v.bind fun v =>
        match v with
        | .num n => some (some n)
        | _ => none
termination_by structural e => e

/-- The value of a term that is neither logical nor arithmetic. -/
def termValue (c : Context) (fs : Frames) : Term → Option Value
  | .str s => some (.str (String.ofList s))
  | .bool b => some (.bool b)
  | .ref path => fs.lookup? c.vars path
  | .test negated path name args =>
    (Check.builtin? name).bind fun check =>
      (evalExprs c fs args).bind fun args =>
        (check (fs.lookup? c.vars path) args).map fun b => .bool (b != negated)
  | .member negated item container =>
    (evalExpr c fs item).bind fun item =>
      (evalExpr c fs container).bind fun container =>
        (memberOf? item container).map fun b => .bool (b != negated)
  | .concat parts => (concatTerms c fs parts).map fun cs => .str (String.ofList cs)
  | .list items => (evalExprs c fs items).map .arr
  | .call name args => (evalArgs c fs args).bind (callBuiltin? name)
  | .macroCall space name args =>
    if space = "self" then
      (evalArgs c fs args).bind fun args =>
        (c.callMacro? name args).map fun cs => .str (String.ofList cs)
    else none
  | .int i => if Number.minInt ≤ i ∧ i < Number.signedBound then some (.int i) else none
  | .double d => some (.num (.double d))
  | .math _ _ _ => none
  | .compare _ _ _ => none
  | .logic _ _ _ => none
termination_by structural t => t

/-- A connective or a comparison. -/
def termTruth (c : Context) (fs : Frames) : Term → Option Bool
  | .logic .or lhs rhs =>
    (evalTruth c fs lhs).bind fun b => if b then some true else evalTruth c fs rhs
  | .logic .and lhs rhs =>
    (evalTruth c fs lhs).bind fun b => if b then evalTruth c fs rhs else some false
  | .compare .eq lhs rhs =>
    (evalExpr c fs lhs).bind fun a => (evalExpr c fs rhs).map fun b => compareValues true a b
  | .compare .ne lhs rhs =>
    (evalExpr c fs lhs).bind fun a => (evalExpr c fs rhs).map fun b => compareValues false a b
  | .compare op lhs rhs =>
    (evalNumber c fs lhs).bind fun a =>
      (evalNumber c fs rhs).bind fun b =>
        match a, b with
        | some a, some b => some (compareNumbers op a.toDouble b.toDouble)
        | _, _ => none
  | _ => none
termination_by structural t => t

/-- A term as a number. -/
def termNumber (c : Context) (fs : Frames) : Term → Option (Option Number)
  | .ref path =>
    (fs.lookup? c.vars path).bind fun v =>
      match v with
      | .num n => some (some n)
      | _ => none
  | .int i => if Number.minInt ≤ i ∧ i < Number.signedBound then some (some (.int i)) else none
  | .double d => some (some (.double d))
  | .math op lhs rhs =>
    (evalNumber c fs lhs).bind fun a =>
      (evalNumber c fs rhs).bind fun b =>
        match a, b with
        | some a, some b => applyMath? op a b
        | _, _ => some none
  | .call name args =>
    ((evalArgs c fs args).bind (callBuiltin? name)).bind fun v =>
      match v with
      | .num n => some (some n)
      | _ => none
  | _ => none
termination_by structural t => t

/-- The value that a leading `default` filter gives. -/
def defaultValue (c : Context) (fs : Frames) : Filters → Option Value
  | .nil => none
  | .cons _ args _ => evalArg c fs "value" args
termination_by structural filters => filters

/-- Filters in order; `safe` and `default` change nothing here. -/
def applyFilters (c : Context) (fs : Frames) : Filters → Value → Option Value
  | .nil, v => some v
  | .cons name args rest, v =>
    if name = "safe" ∨ name = "default" then applyFilters c fs rest v
    else
      (c.filter? name).bind fun filter =>
        (evalArgs c fs args).bind fun args =>
          (filter v args).bind (applyFilters c fs rest)
termination_by structural filters => filters

/-- The values of named arguments. -/
def evalArgs (c : Context) (fs : Frames) : Args → Option Named
  | .nil => some []
  | .cons name e rest =>
    (evalExpr c fs e).bind fun v =>
      (evalArgs c fs rest).map fun more => if Fields.has name more then more else (name, v) :: more
termination_by structural args => args

/-- The value of one named argument. -/
def evalArg (c : Context) (fs : Frames) (wanted : String) : Args → Option Value
  | .nil => none
  | .cons name e rest =>
    if rest.has wanted then evalArg c fs wanted rest
    else if name = wanted then evalExpr c fs e
    else none
termination_by structural args => args

/-- The values of expressions. -/
def evalExprs (c : Context) (fs : Frames) : Exprs → Option (List Value)
  | .nil => some []
  | .cons e rest => (evalExpr c fs e).bind fun v => (evalExprs c fs rest).map (v :: ·)
termination_by structural es => es

/-- The joined texts of terms. -/
def concatTerms (c : Context) (fs : Frames) : Terms → Option (List Char)
  | .nil => some []
  | .cons t rest =>
    ((literalText? t).or ((termValue c fs t).bind concatText?)).bind fun text =>
      (concatTerms c fs rest).map (text ++ ·)
termination_by structural ts => ts

end

/-! ### Parts -/

/-- What rendering a part gives: its text, the frames behind it, and how it ended. -/
abbrev Rendered := Option (List Char × Frames × Flow)

/-- The entries of a loop source: items without keys, or the entries of a record. -/
def loopEntries? (hasKey : Bool) : Value → Option (List (String × Value))
  | .arr items => if hasKey then none else some (items.map fun v => ("", v))
  | .str s => if hasKey then none else some (s.toList.map fun c => ("", .str (String.ofList [c])))
  | .obj fields => if hasKey then some fields else none
  | _ => none

/-- Run the body of a loop once per entry, each time in a frame of its own. -/
def renderLoop (body : Frames → Rendered) (key : Option String) (item : String) (length : Nat) :
    (position : Nat) → List (String × Value) → Frames → Option (List Char × Frames)
  | _, [], fs => some ([], fs)
  | position, (k, v) :: rest, fs =>
    let frame : Frame :=
      { cursor := some { keyName := key, itemName := item, key := k, item := v, position, length } }
    (body (frame :: fs)).bind fun (text, fs, flow) =>
      if flow = .leave then some (text, fs.drop 1)
      else
        (renderLoop body key item length (position + 1) rest (fs.drop 1)).map fun (more, fs) =>
          (text ++ more, fs)

mutual

/-- Parts in order; loop control ends them early. -/
def renderNodes (c : Context) : List Node → Frames → Rendered
  | [], fs => some ([], fs, .next)
  | node :: rest, fs =>
    (renderNode c node fs).bind fun (text, fs, flow) =>
      if flow = .next then
        (renderNodes c rest fs).map fun (more, fs, flow) => (text ++ more, fs, flow)
      else some (text, fs, flow)
termination_by structural nodes => nodes

/-- One part. -/
def renderNode (c : Context) : Node → Frames → Rendered
  | .text s, fs => some (s, fs, .next)
  | .display _ e, fs => (evalExpr c fs e).map fun v => (v.shown.toList, fs, .next)
  | .assign _ isGlobal name e, fs =>
    (evalExpr c fs e).map fun v =>
      ([], if isGlobal then fs.declareGlobal name v else fs.declare name v, .next)
  | .comment _, fs => some ([], fs, .next)
  | .raw _ s _, fs => some (s, fs, .next)
  | .cond branches none _ _, fs => renderBranches c branches (some ([], fs, .next)) fs
  | .cond branches (some otherwise) _ _, fs =>
    renderBranches c branches (renderNodes c otherwise fs) fs
  | .loop _ key item source body none _, fs =>
    if source.term.isSource then
      ((evalExpr c fs source).bind (loopEntries? key.isSome)).bind fun entries =>
        (renderLoop (renderNodes c body) key item entries.length 0 entries fs).map
          fun (text, fs) => (text, fs, .next)
    else none
  | .loop _ key item source body (some empty) _, fs =>
    if source.term.isSource then
      ((evalExpr c fs source).bind (loopEntries? key.isSome)).bind fun entries =>
        if entries.isEmpty then renderNodes c empty fs
        else
          (renderLoop (renderNodes c body) key item entries.length 0 entries fs).map
            fun (text, fs) => (text, fs, .next)
    else none
  | .filtered _ name args body _, fs =>
    (renderNodes c body fs).bind fun (text, fs, flow) =>
      if name = "safe" then some (text, fs, flow)
      else
        (c.filter? name).bind fun filter =>
          (evalArgs c fs args).bind fun args =>
            (filter (.str (String.ofList text)) args).map fun v => (v.shown.toList, fs, flow)
  | .block _ _ body _, fs => renderNodes c body fs
  | .inclusion _ mayBeMissing, fs => if mayBeMissing then some ([], fs, .next) else none
  | .macroDef _ _ _ _ _, fs => some ([], fs, .next)
  | .skip _, fs => some ([], fs, .skip)
  | .leave _, fs => some ([], fs, .leave)
termination_by structural node => node

/-- The first branch whose condition holds, or what stands behind them all. -/
def renderBranches (c : Context) : Branches → (otherwise : Rendered) → Frames → Rendered
  | .nil, otherwise, _ => otherwise
  | .cons _ e body rest, otherwise, fs =>
    (evalTruth c fs e).bind fun b =>
      if b then renderNodes c body fs else renderBranches c rest otherwise fs
termination_by structural branches => branches

end

/-! ### Templates -/

/-- The frame of a macro call: given arguments, or default values; a parameter with neither is
refused. -/
def bindParams? (args : Named) : List Param → Option Namespace
  | [] => some []
  | p :: rest =>
    match args.find? p.name, p.default? with
    | some v, _ => (bindParams? args rest).map (Fields.insert p.name v)
    | none, some v => (bindParams? args rest).map (Fields.insert p.name v)
    | none, none => none

/-- The macro of a template with a given name. -/
def findMacro? (name : String) : List Node → Option (List Param × List Node)
  | [] => none
  | .macroDef _ n params body _ :: rest =>
    if n = name then some (params, body) else findMacro? name rest
  | _ :: rest => findMacro? name rest

/-- Call a macro; macros may call each other to a bounded depth. -/
def callMacro? (nodes : List Node) (c : Context) : (depth : Nat) → String → Named →
    Option (List Char)
  | 0, _, _ => none
  | depth + 1, name, args =>
    (findMacro? name nodes).bind fun (params, body) =>
      (bindParams? args params).bind fun vars =>
        (renderNodes { c with callMacro? := callMacro? nodes c depth } body
          [{ isMacro := true, vars }]).map Prod.fst

/-- The depth to which macros may call each other. -/
def macroDepth : Nat := 64

/-- The text of a template. -/
def renderTemplate? (c : Context) (nodes : List Node) : Option (List Char) :=
  (renderNodes { c with callMacro? := callMacro? nodes c macroDepth } nodes [{}]).map Prod.fst

end Runbook.Template
