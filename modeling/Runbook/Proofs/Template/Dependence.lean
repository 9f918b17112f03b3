import Runbook.Proofs.Template.Bindings
/-!
# What expressions depend on

The frames matter to an expression only through the references it holds, and to a reference only
through the paths that it asks for.

* `Expr.references` — the references of an expression;
* `Expr.Same` — an expression comes to the same under two stacks of frames, as a value, as a
  condition and as a number; `Expr.same` — so it does when its references lead to the same;
* `Frames.asked` — the paths without subscripts that a reference asks for;
* `Expr.same_of_visits` — an expression none of whose names is bound on the way comes to the same at
  every part that rendering reaches.
-/

namespace Runbook.Template

open Runbook.Text

/-! ### References -/

mutual

/-- The references of an expression, as they are written. -/
def Expr.references : Expr → List (List Char)
  | .mk t _ filters => t.references ++ filters.references
termination_by structural e => e

/-- The references of a term. -/
def Term.references : Term → List (List Char)
  | .ref path => [path]
  | .math _ lhs rhs => lhs.references ++ rhs.references
  | .compare _ lhs rhs => lhs.references ++ rhs.references
  | .logic _ lhs rhs => lhs.references ++ rhs.references
  | .test _ path _ args => path :: args.references
  | .member _ item container => item.references ++ container.references
  | .concat parts => parts.references
  | .list items => items.references
  | .call _ args => args.references
  | .macroCall _ _ args => args.references
  | _ => []
termination_by structural t => t

/-- The references of the arguments of filters. -/
def Filters.references : Filters → List (List Char)
  | .nil => []
  | .cons _ args rest => args.references ++ rest.references
termination_by structural filters => filters

/-- The references of named arguments. -/
def Args.references : Args → List (List Char)
  | .nil => []
  | .cons _ e rest => e.references ++ rest.references
termination_by structural args => args

/-- The references of expressions. -/
def Exprs.references : Exprs → List (List Char)
  | .nil => []
  | .cons e rest => e.references ++ rest.references
termination_by structural es => es

/-- The references of terms. -/
def Terms.references : Terms → List (List Char)
  | .nil => []
  | .cons t rest => t.references ++ rest.references
termination_by structural ts => ts

end

/-! ### Two stacks of frames -/

/-- References that lead to the same value through both stacks. -/
def LookedUpAlike (c : Context) (fs gs : Frames) (paths : List (List Char)) : Prop :=
  ∀ path ∈ paths, gs.lookup? c.vars path = fs.lookup? c.vars path

namespace LookedUpAlike

variable {c : Context} {fs gs : Frames} {ps qs : List (List Char)}

theorem left (h : LookedUpAlike c fs gs (ps ++ qs)) : LookedUpAlike c fs gs ps :=
  fun path hpath => h path (List.mem_append_left _ hpath)

theorem right (h : LookedUpAlike c fs gs (ps ++ qs)) : LookedUpAlike c fs gs qs :=
  fun path hpath => h path (List.mem_append_right _ hpath)

theorem head {path : List Char} (h : LookedUpAlike c fs gs (path :: ps)) :
    gs.lookup? c.vars path = fs.lookup? c.vars path :=
  h path List.mem_cons_self

theorem tail {path : List Char} (h : LookedUpAlike c fs gs (path :: ps)) :
    LookedUpAlike c fs gs ps :=
  fun other hother => h other (List.mem_cons_of_mem _ hother)

end LookedUpAlike

/-- An expression comes to the same under two stacks, whatever it is taken as. -/
structure Expr.Same (c : Context) (fs gs : Frames) (e : Expr) : Prop where
  value : evalExpr c gs e = evalExpr c fs e
  truth : evalTruth c gs e = evalTruth c fs e
  number : evalNumber c gs e = evalNumber c fs e

/-- A term comes to the same. -/
structure Term.Same (c : Context) (fs gs : Frames) (t : Term) : Prop where
  value : termValue c gs t = termValue c fs t
  truth : termTruth c gs t = termTruth c fs t
  number : termNumber c gs t = termNumber c fs t

/-- Filters do the same. -/
structure Filters.Same (c : Context) (fs gs : Frames) (filters : Filters) : Prop where
  default : defaultValue c gs filters = defaultValue c fs filters
  apply : applyFilters c gs filters = applyFilters c fs filters

/-- Named arguments come to the same, all of them and each by its name. -/
structure Args.Same (c : Context) (fs gs : Frames) (args : Args) : Prop where
  all : evalArgs c gs args = evalArgs c fs args
  one : ∀ wanted, evalArg c gs wanted args = evalArg c fs wanted args

section Same

variable {c : Context} {fs gs : Frames}

mutual

/-- An expression comes to the same when its references do. -/
theorem Expr.same : (e : Expr) → LookedUpAlike c fs gs e.references → e.Same c fs gs
  | .mk t negated filters, h => by
    have ht := Term.same t h.left
    have hfilters := Filters.same filters h.right
    refine ⟨?_, ?_, ?_⟩
    · rw [evalExpr, evalExpr, ht.value, ht.truth, ht.number, hfilters.default, hfilters.apply]
    · rw [evalTruth, evalTruth, ht.value, ht.truth, ht.number, hfilters.default, hfilters.apply]
    · rw [evalNumber, evalNumber, ht.value, ht.truth, ht.number, hfilters.default,
        hfilters.apply]
termination_by structural e => e

/-- So does a term. -/
theorem Term.same : (t : Term) → LookedUpAlike c fs gs t.references → t.Same c fs gs
  | .str _, _ => ⟨rfl, rfl, rfl⟩
  | .int _, _ => ⟨rfl, rfl, rfl⟩
  | .double _, _ => ⟨rfl, rfl, rfl⟩
  | .bool _, _ => ⟨rfl, rfl, rfl⟩
  | .ref path, h => by
    refine ⟨h.head, rfl, ?_⟩
    rw [termNumber, termNumber, h.head]
  | .math op lhs rhs, h => by
    have hl := Expr.same lhs h.left
    have hr := Expr.same rhs h.right
    refine ⟨rfl, rfl, ?_⟩
    rw [termNumber, termNumber, hl.number, hr.number]
  | .compare op lhs rhs, h => by
    have hl := Expr.same lhs h.left
    have hr := Expr.same rhs h.right
    refine ⟨rfl, ?_, rfl⟩
    cases op with
    | eq => rw [termTruth, termTruth, hl.value, hr.value]
    | ne => rw [termTruth, termTruth, hl.value, hr.value]
    | lt | le | gt | ge => simp only [termTruth, hl.number, hr.number]
  | .logic op lhs rhs, h => by
    have hl := Expr.same lhs h.left
    have hr := Expr.same rhs h.right
    refine ⟨rfl, ?_, rfl⟩
    cases op with
    | or => rw [termTruth, termTruth, hl.truth, hr.truth]
    | and => rw [termTruth, termTruth, hl.truth, hr.truth]
  | .test negated path name args, h => by
    have hargs := Exprs.same args h.tail
    refine ⟨?_, rfl, rfl⟩
    rw [termValue, termValue, hargs, h.head]
  | .member negated item container, h => by
    have hitem := Expr.same item h.left
    have hcontainer := Expr.same container h.right
    refine ⟨?_, rfl, rfl⟩
    rw [termValue, termValue, hitem.value, hcontainer.value]
  | .concat parts, h => by
    have hparts := Terms.same parts h
    refine ⟨?_, rfl, rfl⟩
    rw [termValue, termValue, hparts]
  | .list items, h => by
    have hitems := Exprs.same items h
    refine ⟨?_, rfl, rfl⟩
    rw [termValue, termValue, hitems]
  | .call name args, h => by
    have hargs := Args.same args h
    refine ⟨?_, rfl, ?_⟩
    · rw [termValue, termValue, hargs.all]
    · rw [termNumber, termNumber, hargs.all]
  | .macroCall space name args, h => by
    have hargs := Args.same args h
    refine ⟨?_, rfl, rfl⟩
    rw [termValue, termValue, hargs.all]
termination_by structural t => t

/-- Filters do the same when the references of their arguments do. -/
theorem Filters.same : (filters : Filters) → LookedUpAlike c fs gs filters.references →
    filters.Same c fs gs
  | .nil, _ => ⟨rfl, rfl⟩
  | .cons name args rest, h => by
    have hargs := Args.same args h.left
    have hrest := Filters.same rest h.right
    refine ⟨hargs.one "value", ?_⟩
    funext v
    rw [applyFilters, applyFilters, hargs.all, hrest.apply]
termination_by structural filters => filters

/-- Named arguments come to the same when their references do. -/
theorem Args.same : (args : Args) → LookedUpAlike c fs gs args.references → args.Same c fs gs
  | .nil, _ => ⟨rfl, fun _ => rfl⟩
  | .cons name e rest, h => by
    have he := Expr.same e h.left
    have hrest := Args.same rest h.right
    refine ⟨?_, fun wanted => ?_⟩
    · rw [evalArgs, evalArgs, he.value, hrest.all]
    · rw [evalArg, evalArg, he.value, hrest.one wanted]
termination_by structural args => args

/-- So do expressions. -/
theorem Exprs.same : (es : Exprs) → LookedUpAlike c fs gs es.references →
    evalExprs c gs es = evalExprs c fs es
  | .nil, _ => rfl
  | .cons e rest, h => by
    have he := Expr.same e h.left
    have hrest := Exprs.same rest h.right
    rw [evalExprs, evalExprs, he.value, hrest]
termination_by structural es => es

/-- So do terms that are joined. -/
theorem Terms.same : (ts : Terms) → LookedUpAlike c fs gs ts.references →
    concatTerms c gs ts = concatTerms c fs ts
  | .nil, _ => rfl
  | .cons t rest, h => by
    have ht := Term.same t h.left
    have hrest := Terms.same rest h.right
    rw [concatTerms, concatTerms, ht.value, hrest]
termination_by structural ts => ts

end

end Same

/-! ### Subscripts -/

namespace Frames

/-- A reference with the value of one subscript in its place. -/
def fillIn? (ns : Namespace) (fs : Frames) (fuel : Nat) (full sub : List Char) :
    Option (List Char) :=
  (fs.resolve? ns fuel sub).bind fun v =>
    (subscriptText? v).map fun text => replaceFirst ('[' :: (sub ++ [']'])) ('.' :: text) full

/-- A reference with the values of all its subscripts in their places. -/
def filledIn? (ns : Namespace) (fs : Frames) (fuel : Nat) (path : List Char) :
    Option (List Char) :=
  (Template.subscripts path.length path).foldlM (fs.fillIn? ns fuel) path

/-- The paths without subscripts that a written reference asks for: those of its subscripts, and
the path that it is with their values in their places. -/
def asked (ns : Namespace) (fs : Frames) : (fuel : Nat) → List Char → List (List Char)
  | 0, _ => []
  | fuel + 1, path =>
    if path.contains '[' then
      (Template.subscripts path.length path).flatMap (fs.asked ns fuel)
        ++ ((fs.filledIn? ns fuel path).map undoBrackets).toList
    else [path]

/-- A reference without subscripts asks for itself. -/
theorem asked_of_plain (ns : Namespace) (fs : Frames) (fuel : Nat) {path : List Char}
    (h : path.contains '[' = false) : fs.asked ns (fuel + 1) path = [path] := by
  rw [asked, h]
  rfl

/-- A reference is filled in and then asked for. -/
theorem resolve?_succ (ns : Namespace) (fs : Frames) (fuel : Nat) (path : List Char) :
    fs.resolve? ns (fuel + 1) path
      = if path.contains '[' then
          (fs.filledIn? ns fuel path).bind fun full => fs.find? ns (undoBrackets full)
        else fs.find? ns path :=
  rfl

/-- References whose subscripts lead to the same are filled in alike. -/
theorem foldlM_fillIn?_congr {ns : Namespace} {fs gs : Frames} {fuel : Nat}
    {subs : List (List Char)}
    (h : ∀ sub ∈ subs, gs.resolve? ns fuel sub = fs.resolve? ns fuel sub) (full : List Char) :
    subs.foldlM (gs.fillIn? ns fuel) full = subs.foldlM (fs.fillIn? ns fuel) full := by
  induction subs generalizing full with
  | nil => rfl
  | cons sub subs ih =>
    have hsub : gs.resolve? ns fuel sub = fs.resolve? ns fuel sub := h sub List.mem_cons_self
    have hrest : ∀ other ∈ subs, gs.resolve? ns fuel other = fs.resolve? ns fuel other :=
      fun other hother => h other (List.mem_cons_of_mem _ hother)
    rw [List.foldlM_cons, List.foldlM_cons, fillIn?, fillIn?, hsub]
    exact congrArg _ (funext fun full => ih hrest full)

/-- A reference leads to the same when the paths do that it asks for. -/
theorem resolve?_congr {ns : Namespace} {fs gs : Frames} (fuel : Nat) {path : List Char}
    (h : ∀ p ∈ fs.asked ns fuel path, gs.find? ns p = fs.find? ns p) :
    gs.resolve? ns fuel path = fs.resolve? ns fuel path := by
  induction fuel generalizing path with
  | zero => rfl
  | succ fuel ih =>
    rw [resolve?_succ, resolve?_succ]
    rw [asked] at h
    split at h
    · next hbracket =>
      have hsubs : ∀ sub ∈ Template.subscripts path.length path,
          gs.resolve? ns fuel sub = fs.resolve? ns fuel sub := by
        intro sub hsub
        refine ih fun p hp => h p (List.mem_append_left _ ?_)
        exact List.mem_flatMap.2 ⟨sub, hsub, hp⟩
      have hfilled : gs.filledIn? ns fuel path = fs.filledIn? ns fuel path :=
        foldlM_fillIn?_congr hsubs path
      rw [if_pos hbracket, if_pos hbracket, hfilled]
      cases hfull : fs.filledIn? ns fuel path with
      | none => rfl
      | some full =>
        refine h (undoBrackets full) (List.mem_append_right _ ?_)
        rw [hfull]
        exact List.mem_singleton.2 rfl
    · next hbracket =>
      rw [if_neg hbracket, if_neg hbracket]
      exact h path (List.mem_singleton.2 rfl)

end Frames

/-! ### Parts that are reached -/

/-- No part binds a name that a reference asks for, when it asks in front of these parts, and it
asks for no state of a loop. -/
def Unbound (c : Context) (nodes : List Node) (fs : Frames) (reference : List Char) : Prop :=
  ∀ path ∈ fs.asked c.vars (reference.length + 1) reference,
    Spared path (boundIn nodes) ∧ String.ofList path ∉ loopStates

/-- **Expressions without bound names come to the same** at every part that rendering reaches as in
front of all parts. -/
theorem Expr.same_of_visits {c : Context} {nodes : List Node} {fs gs : Frames} {node : Node}
    (hvisits : Visits c nodes fs node gs) {e : Expr}
    (h : ∀ reference ∈ e.references, Unbound c nodes fs reference) : e.Same c fs gs := by
  refine Expr.same e fun reference hreference => ?_
  refine Frames.resolve?_congr _ fun path hpath => ?_
  obtain ⟨hspared, hstate⟩ := h reference hreference path hpath
  exact find?_of_visits hvisits hspared hstate c.vars

end Runbook.Template
