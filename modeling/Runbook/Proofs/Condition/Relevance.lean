import Runbook.Proofs.Condition.Words
import Runbook.Run.Engine
/-!
# What conditions depend on

A condition depends on the entries of its namespace that it has words for, and on no other one,
unless it asks which variables there are or evaluates a text.

* `Agree` — two scopes have the same data for the names with a property;
* `Alike` — two evaluations come to the same and leave scopes that agree, or fail in the same way;
  `Alike.bind` — one evaluation after another;
* `callFunction_alike` — a call of any function but two;
* `evalExpr_alike` — an expression within the names, by recursion over it;
* `evaluate_of_words` — conditions, and whether a step is skipped.
-/

namespace Runbook.Condition

variable {p : String → Prop} {s s' : Scope}

/-! ### Scopes that agree -/

/-- Two scopes have the same data for the names with a property. -/
def Agree (p : String → Prop) (s s' : Scope) : Prop :=
  ∀ name, p name → s.lookup name = s'.lookup name

theorem Agree.find (h : Agree p s s') {name : String} (hname : p name) :
    s.find name = s'.find name := by
  rw [Scope.find, Scope.find, h name hname]

theorem Agree.assign (h : Agree p s s') (name : String) (d : Datum) :
    Agree p (s.assign name d) (s'.assign name d) := by
  intro other hother
  rw [Scope.lookup_assign, Scope.lookup_assign, h other hother]

theorem Agree.capture (h : Agree p s s') {names : List String} (hnames : ∀ n ∈ names, p n) :
    capture s names = capture s' names := by
  induction names with
  | nil => rfl
  | cons name rest ih =>
    obtain ⟨hname, hrest⟩ := List.forall_mem_cons.1 hnames
    rw [Condition.capture, Condition.capture, h.find hname, ih hrest]

/-! ### Evaluations that come to the same -/

/-- Two evaluations come to the same and leave scopes that agree, or fail in the same way. -/
inductive Alike (p : String → Prop) {α : Type} : Result (α × Scope) → Result (α × Scope) → Prop
  | ok {x : α} {s s' : Scope} (h : Agree p s s') : Alike p (.ok (x, s)) (.ok (x, s'))
  | error (f : Failure) : Alike p (.error f) (.error f)

namespace Alike

variable {α β γ : Type}

theorem bind {r r' : Result (α × Scope)} {f f' : α × Scope → Result (β × Scope)}
    (h : Alike p r r')
    (hf : ∀ x s s', Agree p s s' → Alike p (f (x, s)) (f' (x, s'))) :
    Alike p (r >>= f) (r' >>= f') := by
  cases h with
  | ok hs => exact hf _ _ _ hs
  | error failure => exact .error failure

/-- A part that no scope takes part in. -/
theorem bind_same {r : Result γ} {f f' : γ → Result (α × Scope)}
    (hf : ∀ x, Alike p (f x) (f' x)) : Alike p (r >>= f) (r >>= f') := by
  cases r with
  | ok x => exact hf x
  | error failure => exact .error failure

/-- What is left of a scope that a result is handed on with. -/
theorem map_same {r : Result γ} {f f' : γ → α × Scope}
    (hf : ∀ x, (f x).1 = (f' x).1 ∧ Agree p (f x).2 (f' x).2) :
    Alike p (r.map f) (r.map f') := by
  cases r with
  | error failure => exact .error failure
  | ok x =>
    obtain ⟨hx, hs⟩ := hf x
    show Alike p (.ok ((f x).1, (f x).2)) (.ok ((f' x).1, (f' x).2))
    rw [hx]
    exact .ok hs

/-- Evaluations that come to the same have the same data. -/
theorem map_fst {r r' : Result (α × Scope)} (h : Alike p r r') :
    r.map Prod.fst = r'.map Prod.fst := by
  cases h <;> rfl

end Alike

/-! ### Calls -/

/-- The functions that depend on which variables there are. -/
def asking : List String := ["eval", "is_def_var"]

/-- Every other function of the language hands the scope on as it is. -/
theorem callWord?_eq {name : String} (hname : name ∉ asking) (env : Env) (args : List Datum) :
    ∃ found : Option (Result Datum), ∀ s,
      callWord? env name args s = found.map fun result => result.map fun d => (d, s) := by
  simp only [asking, List.mem_cons, List.not_mem_nil, or_false, not_or] at hname
  obtain ⟨heval, hdefined⟩ := hname
  unfold callWord?
  split
  · next d => exact ⟨some (.ok (.str d.typeWord)), fun _ => rfl⟩
  · exact ⟨some (.ok (.bool false)), fun _ => rfl⟩
  · exact absurd rfl hdefined
  · exact ⟨some (.ok (.bool false)), fun _ => rfl⟩
  · exact ⟨some (.ok .unit), fun _ => rfl⟩
  · exact ⟨some (.ok .unit), fun _ => rfl⟩
  · next f args => exact ⟨some (env.invoke f args), fun _ => rfl⟩
  · exact absurd rfl heval
  · exact absurd rfl heval
  · exact ⟨none, fun _ => rfl⟩

/-- Calls of such a function come to the same. -/
theorem callFunction_alike {name : String} (hname : name ∉ asking) (env : Env)
    (variable_ : Option String) (args : List Datum) (h : Agree p s s') :
    Alike p (callFunction env name variable_ args s) (callFunction env name variable_ args s') := by
  obtain ⟨found, hfound⟩ := callWord?_eq hname env args
  unfold callFunction
  rw [hfound s, hfound s']
  cases found with
  | some result => exact .map_same fun d => ⟨rfl, h⟩
  | none =>
    cases args with
    | nil =>
      simp only [Option.map_none]
      split
      · exact .map_same fun d => ⟨rfl, h⟩
      · exact .map_same fun d => ⟨rfl, h⟩
    | cons target rest =>
      refine .bind_same fun found => ?_
      obtain ⟨result, target⟩ := found
      cases variable_ with
      | some n => exact .ok (h.assign n target)
      | none => exact .ok h

/-! ### Expressions -/

/-- Not the variable itself but its expression is evaluated where there is more than a name. -/
theorem evalExpr_member {container : Expr} (h : ∀ n, container ≠ .name n) (env : Env)
    (negated : Bool) (item : Expr) (s : Scope) :
    evalExpr env (.member negated item container) s = (do
      let (container, s) ← evalExpr env container s
      let (item, s) ← evalExpr env item s
      let d ← memberOf env negated item container
      pure (d, s)) := by
  cases container with
  | name n => exact absurd rfl (h n)
  | _ => rfl

theorem evalExpr_chain {root : Expr} (h : ∀ n, root ≠ .name n) (env : Env) (links : List Link)
    (s : Scope) :
    evalExpr env (.chain root links) s = (do
      let (steps, s) ← evalLinks env links s
      let (d, s) ← evalExpr env root s
      let (result, _) ← runSteps env steps d
      pure (result, s)) := by
  cases root with
  | name n => exact absurd rfl (h n)
  | _ => rfl

theorem evalExpr_call {first : Expr} (h : ∀ n, first ≠ .name n) (env : Env) (name : String)
    (rest : List Expr) (s : Scope) :
    evalExpr env (.call name (first :: rest)) s = (do
      let (ds, s) ← evalAll env (first :: rest) s
      callFunction env name none ds s) := by
  cases first with
  | name n => exact absurd rfl (h n)
  | _ => rfl

mutual

/-- **An expression comes to the same** in scopes that agree on its variables, if it calls only
functions of the kind. -/
theorem evalExpr_alike (hcalls : ∀ name, p name → name ∉ asking) (env : Env) :
    (e : Expr) → e.Within p → ∀ {s s' : Scope}, Agree p s s' →
      Alike p (evalExpr env e s) (evalExpr env e s')
  | .unit, _, _, _, hs | .bool _, _, _, _, hs | .int _, _, _, _, hs | .double _, _, _, _, hs
  | .char _, _, _, _, hs | .str _, _, _, _, hs => .ok hs
  | .joined parts, h, s, s', hs => by
    refine (evalAll_alike hcalls env parts h hs).bind fun ds s s' hs => ?_
    exact .ok hs
  | .list items, h, s, s', hs => by
    refine (evalAll_alike hcalls env items h hs).bind fun ds s s' hs => ?_
    exact .ok hs
  | .record _ values, h, s, s', hs => by
    refine (evalAll_alike hcalls env values h hs).bind fun ds s s' hs => ?_
    exact .ok hs
  | .name n, h, s, s', hs => by
    rw [evalExpr, evalExpr, hs.find h]
    exact .bind_same fun d => .ok hs
  | .signed sign e, h, s, s', hs => by
    refine (evalExpr_alike hcalls env e h hs).bind fun d s s' hs => ?_
    exact .bind_same fun d => .ok hs
  | .binary op lhs rhs, h, s, s', hs => by
    refine (evalExpr_alike hcalls env lhs h.1 hs).bind fun a s s' hs => ?_
    refine (evalExpr_alike hcalls env rhs h.2 hs).bind fun b s s' hs => ?_
    exact .bind_same fun d => .ok hs
  | .member negated item container, h, s, s', hs => by
    by_cases hname : ∃ n, container = .name n
    · obtain ⟨n, rfl⟩ := hname
      refine (evalExpr_alike hcalls env item h.1 hs).bind fun item s s' hs => ?_
      dsimp only
      rw [hs.find h.2]
      exact .bind_same fun container => .bind_same fun d => .ok hs
    · have hmore := not_exists.1 hname
      rw [evalExpr_member hmore, evalExpr_member hmore]
      refine (evalExpr_alike hcalls env container h.2 hs).bind fun container s s' hs => ?_
      refine (evalExpr_alike hcalls env item h.1 hs).bind fun item s s' hs => ?_
      exact .bind_same fun d => .ok hs
  | .and lhs rhs, h, s, s', hs => by
    refine (evalExpr_alike hcalls env lhs h.1 hs).bind fun a s s' hs => ?_
    refine .bind_same fun b => ?_
    cases b with
    | false => exact .ok hs
    | true =>
      refine (evalExpr_alike hcalls env rhs h.2 hs).bind fun b s s' hs => ?_
      exact .bind_same fun b => .ok hs
  | .or lhs rhs, h, s, s', hs => by
    refine (evalExpr_alike hcalls env lhs h.1 hs).bind fun a s s' hs => ?_
    refine .bind_same fun b => ?_
    cases b with
    | true => exact .ok hs
    | false =>
      refine (evalExpr_alike hcalls env rhs h.2 hs).bind fun b s s' hs => ?_
      exact .bind_same fun b => .ok hs
  | .coalesce lhs rhs, h, s, s', hs => by
    refine (evalExpr_alike hcalls env lhs h.1 hs).bind fun a s s' hs => ?_
    dsimp only
    split
    · exact evalExpr_alike hcalls env rhs h.2 hs
    · exact .ok hs
  | .call name [], h, s, s', hs => callFunction_alike (hcalls name h.1) env none [] hs
  | .call name (first :: rest), h, s, s', hs => by
    by_cases hname : ∃ n, first = .name n
    · obtain ⟨n, rfl⟩ := hname
      refine (evalAll_alike hcalls env rest h.2.2 hs).bind fun ds s s' hs => ?_
      dsimp only
      rw [hs.find h.2.1]
      exact .bind_same fun d => callFunction_alike (hcalls name h.1) env (some n) (d :: ds) hs
    · have hmore := not_exists.1 hname
      rw [evalExpr_call hmore, evalExpr_call hmore]
      refine (evalAll_alike hcalls env (first :: rest) h.2 hs).bind fun ds s s' hs => ?_
      exact callFunction_alike (hcalls name h.1) env none ds hs
  | .qualified args, h, s, s', hs => by
    refine (evalAll_alike hcalls env args h hs).bind fun ds s s' hs => ?_
    exact .error _
  | .chain root links, h, s, s', hs => by
    by_cases hname : ∃ n, root = .name n
    · obtain ⟨n, rfl⟩ := hname
      refine (evalLinks_alike hcalls env links h.2 hs).bind fun steps s s' hs => ?_
      dsimp only
      rw [hs.find h.1]
      refine .bind_same fun d => .bind_same fun found => ?_
      exact .ok (hs.assign n found.2)
    · have hmore := not_exists.1 hname
      rw [evalExpr_chain hmore, evalExpr_chain hmore]
      refine (evalLinks_alike hcalls env links h.2 hs).bind fun steps s s' hs => ?_
      refine (evalExpr_alike hcalls env root h.1 hs).bind fun d s s' hs => ?_
      exact .bind_same fun found => .ok hs
  | .cond condition yes no, h, s, s', hs => by
    refine (evalExpr_alike hcalls env condition h.1 hs).bind fun c s s' hs => ?_
    refine .bind_same fun b => ?_
    cases b with
    | true => exact evalExpr_alike hcalls env yes h.2.1 hs
    | false => exact evalExpr_alike hcalls env no h.2.2 hs
  | .choose subject cases otherwise, h, s, s', hs => by
    refine (evalExpr_alike hcalls env subject h.1 hs).bind fun d s s' hs => ?_
    exact evalCases_alike hcalls env d (fun hs => evalExpr_alike hcalls env otherwise h.2.2 hs)
      cases h.2.1 hs
  | .closure params body, h, s, s', hs => by
    have hnames : ∀ n ∈ (Expr.closure params body).names.eraseDups, p n := fun n hn =>
      Expr.Within.names (.closure params body) h n (List.mem_eraseDups.1 hn)
    rw [evalExpr, evalExpr, hs.capture hnames]
    exact .bind_same fun captured => .ok hs
termination_by structural e => e

theorem evalAll_alike (hcalls : ∀ name, p name → name ∉ asking) (env : Env) :
    (es : List Expr) → AllWithin p es → ∀ {s s' : Scope}, Agree p s s' →
      Alike p (evalAll env es s) (evalAll env es s')
  | [], _, _, _, hs => .ok hs
  | e :: rest, h, s, s', hs => by
    refine (evalExpr_alike hcalls env e h.1 hs).bind fun d s s' hs => ?_
    refine (evalAll_alike hcalls env rest h.2 hs).bind fun ds s s' hs => ?_
    exact .ok hs
termination_by structural es => es

theorem evalLinks_alike (hcalls : ∀ name, p name → name ∉ asking) (env : Env) :
    (links : List Link) → LinksWithin p links → ∀ {s s' : Scope}, Agree p s s' →
      Alike p (evalLinks env links s) (evalLinks env links s')
  | [], _, _, _, hs => .ok hs
  | link :: rest, h, s, s', hs => by
    refine (evalLink_alike hcalls env link h.1 hs).bind fun step s s' hs => ?_
    refine (evalLinks_alike hcalls env rest h.2 hs).bind fun steps s s' hs => ?_
    exact .ok hs
termination_by structural links => links

theorem evalLink_alike (hcalls : ∀ name, p name → name ∉ asking) (env : Env) :
    (link : Link) → link.Within p → ∀ {s s' : Scope}, Agree p s s' →
      Alike p (evalLink env link s) (evalLink env link s')
  | .property _ _, _, _, _, hs => .ok hs
  | .subscript _ index, h, s, s', hs => by
    refine (evalExpr_alike hcalls env index h hs).bind fun d s s' hs => ?_
    exact .ok hs
  | .method _ _ args, h, s, s', hs => by
    refine (evalAll_alike hcalls env args h hs).bind fun ds s s' hs => ?_
    exact .ok hs
termination_by structural link => link

theorem evalCases_alike (hcalls : ∀ name, p name → name ∉ asking) (env : Env) (subject : Datum)
    {otherwise : Scope → Outcome}
    (hotherwise : ∀ {s s' : Scope}, Agree p s s' → Alike p (otherwise s) (otherwise s')) :
    (cases : List Choice) → CasesWithin p cases → ∀ {s s' : Scope}, Agree p s s' →
      Alike p (evalCases env subject otherwise cases s) (evalCases env subject otherwise cases s')
  | [], _, _, _, hs => hotherwise hs
  | c :: rest, h, s, s', hs => by
    refine (evalCase_alike hcalls env subject c h.1 hs).bind fun found s s' hs => ?_
    cases found with
    | some d => exact .ok hs
    | none => exact evalCases_alike hcalls env subject hotherwise rest h.2 hs
termination_by structural cases => cases

theorem evalCase_alike (hcalls : ∀ name, p name → name ∉ asking) (env : Env) (subject : Datum) :
    (c : Choice) → c.Within p → ∀ {s s' : Scope}, Agree p s s' →
      Alike p (evalCase env subject c s) (evalCase env subject c s')
  | .mk values guard result, h, s, s', hs => by
    refine (evalAll_alike hcalls env values h.1 hs).bind fun ds s s' hs => ?_
    dsimp only
    split
    · refine (evalExpr_alike hcalls env guard h.2.1 hs).bind fun g s s' hs => ?_
      refine .bind_same fun b => ?_
      cases b with
      | false => exact .ok hs
      | true =>
        refine (evalExpr_alike hcalls env result h.2.2 hs).bind fun d s s' hs => ?_
        exact .ok hs
    · exact .ok hs
termination_by structural c => c

end

/-! ### Conditions -/

/-- Namespaces that agree on some names make scopes that agree. -/
theorem agree_scopeOf {vars vars' : Namespace}
    (h : ∀ name, p name → vars.get? name = vars'.get? name) :
    Agree p (scopeOf vars) (scopeOf vars') := by
  intro name hname
  rw [lookup_scopeOf, lookup_scopeOf, h name hname]

theorem evaluate_congr {expression : String} {vars vars' : Namespace} (helpers : Helpers)
    (hcalls : ∀ name ∈ asking, name ∉ wordsOf expression)
    (hvars : ∀ name ∈ wordsOf expression, vars.get? name = vars'.get? name) :
    evaluate helpers expression vars = evaluate helpers expression vars' := by
  rw [evaluate_eq_answer, evaluate_eq_answer]
  congr 1
  unfold evalWritten
  cases hexpr : Expr.ofChars? (doubleQuoted expression.toList) with
  | none => rfl
  | some e =>
    obtain ⟨tokens, htokens, -⟩ := Option.bind_eq_some_iff.1 hexpr
    have hwithin : e.Within (· ∈ wordsOf expression) :=
      Expr.within_of_ofChars? htokens (words_wordsOf htokens) hexpr
    have hfunctions : ∀ name ∈ wordsOf expression, name ∉ asking :=
      fun name hname hasking => hcalls name hasking hname
    exact (evalExpr_alike hfunctions _ e hwithin (agree_scopeOf hvars)).map_fst

/-- **Conditions depend on the entries that they have words for.**  The words of a condition stand
in its text.  If neither of the functions that depend on which variables there are is among them:

* namespaces with the same entries for these words give the same answer, be it a truth value or a
  fault;
* an entry under any other name changes no answer, whether it comes in, takes another value or goes,
  and does not change whether a step is skipped. -/
theorem evaluate_of_words (expression : String) :
    (∀ name ∈ wordsOf expression, name.toList <:+: expression.toList) ∧
    ((∀ name ∈ asking, name ∉ wordsOf expression) →
      (∀ (helpers : Helpers) (vars vars' : Namespace),
        (∀ name ∈ wordsOf expression, vars.get? name = vars'.get? name) →
        evaluate helpers expression vars = evaluate helpers expression vars') ∧
      ∀ (setup : Setup) (step : Runbook.Step) (s : State) (key : String) (value : Value),
        step.requires = expression → key ∉ wordsOf expression →
        setup.checkRequires step { s with vars := s.vars.insert key value }
          = setup.checkRequires step s ∧
        setup.checkRequires step { s with vars := s.vars.erase key }
          = setup.checkRequires step s) := by
  refine ⟨fun name => wordsOf_inText, fun hcalls =>
    ⟨fun helpers _ _ => evaluate_congr helpers hcalls,
      fun setup step s key value hrequires hkey => ?_⟩⟩
  have hsame : ∀ vars, (∀ name ∈ wordsOf expression, Fields.get? name vars = s.vars.get? name) →
      setup.checkRequires step { s with vars } = setup.checkRequires step s := by
    intro vars hvars
    unfold Setup.checkRequires
    rw [hrequires, evaluate_congr _ hcalls hvars]
  have hother : ∀ name ∈ wordsOf expression, name ≠ key :=
    fun name hname heq => hkey (heq ▸ hname)
  exact ⟨hsame _ fun name hname => Fields.get?_insert_of_ne value s.vars (hother name hname),
    hsame _ fun name hname => Fields.get?_erase_of_ne s.vars (hother name hname)⟩

/-- A condition on two variables. -/
def listed : String := "os == 'linux' && [1, 2].some(|v| v in ports)"

/-- Entries under other names. -/
def others : Namespace :=
  [("eval", .bool false), ("not a name", .num (.int 18446744073709551615)), ("os", .str "linux"),
    ("ports", .arr [.num (.int 2)])]

/-- It is the same with an integer beyond the signed words and with keys that are no names. -/
theorem evaluate_listed_of_words :
    wordsOf listed = ["os", "some", "v", "v", "in", "ports"] ∧
    (∀ name ∈ asking, name ∉ wordsOf listed) ∧
    (∀ helpers, evaluate helpers listed others
      = evaluate helpers listed [("os", .str "linux"), ("ports", .arr [.num (.int 2)])]) ∧
    ∀ setup : Setup, setup.checkRequires { requires := listed, body := .message }
        { vars := others.insert "os'" .null, world := {} }
      = setup.checkRequires { requires := listed, body := .message }
        { vars := others, world := {} } := by
  have hwords : wordsOf listed = ["os", "some", "v", "v", "in", "ports"] := by decide +kernel
  have hcalls : ∀ name ∈ asking, name ∉ wordsOf listed := by
    rw [hwords]
    decide
  have hkey : "os'" ∉ wordsOf listed := by
    rw [hwords]
    decide
  obtain ⟨hcondition, hstep⟩ := (evaluate_of_words listed).2 hcalls
  refine ⟨hwords, hcalls, fun helpers => hcondition helpers _ _ ?_, fun setup =>
    (hstep setup _ { vars := others, world := {} } "os'" .null rfl hkey).1⟩
  rw [hwords]
  intro name hname
  simp only [List.mem_cons, List.not_mem_nil, or_false] at hname
  rcases hname with rfl | rfl | rfl | rfl | rfl | rfl <;> rfl

end Runbook.Condition
