import Runbook.Proofs.Template.Comparison
import Runbook.Proofs.Template.Numeral
/-!
# The values of what is read

An expression that was read from the text of an operand has the value of the operand.

* `Shows`, `Decides` — what an expression shows, and which truth value it decides;
* `Means` — an expression shows and decides what a tree comes to;
* `Means.plain`, `Means.negated` — so does what is read as an operand, and its negation;
* `Means.closed` — parentheses replace the negation mark, so only what is no negation keeps its
  meaning in them.

Rendering may fail where the tree has a value, so both are said of values that are there.  A
filtered literal decides nothing that its filters change, and the negation of a comparison is shown
without the negation.
-/

namespace Runbook.Template.Action

/-! ### Filters -/

/-- An outcome behind filters. -/
def Outcome.filterAll (c : Context) (o : Outcome) (names : List (List Char)) : Outcome :=
  names.foldl (fun o name => o.filter (c.filter? (String.ofList name))) o

section Filters

variable (c : Context) (fs : Frames)

theorem filterAll_absent (names : List (List Char)) :
    Outcome.filterAll c .absent names = .absent := by
  induction names with
  | nil => rfl
  | cons name names ih => exact ih

theorem filterAll_failed (names : List (List Char)) :
    Outcome.filterAll c .failed names = .failed := by
  induction names with
  | nil => rfl
  | cons name names ih => exact ih

/-- The filters that are applied, and not passed over. -/
def Applied (names : List (List Char)) : Prop :=
  ∀ name ∈ names, name ≠ "safe".toList ∧ name ≠ "default".toList

theorem ofList_ne {name : List Char} {word : String} (h : name ≠ word.toList) :
    String.ofList name ≠ word := by
  rintro rfl
  exact h (String.toList_ofList).symm

/-- Filters without arguments apply one after the other. -/
theorem filterAll_value {names : List (List Char)} (hnames : Applied names) (v : Value) :
    Outcome.filterAll c (.value v) names
      = Outcome.ofOption (applyFilters c fs (Filters.ofList (plainFilters names)) v) := by
  induction names generalizing v with
  | nil => rfl
  | cons name names ih =>
    obtain ⟨hsafe, hdefault⟩ := hnames name List.mem_cons_self
    have hnot : ¬(String.ofList name = "safe" ∨ String.ofList name = "default") := fun h =>
      h.elim (ofList_ne hsafe) (ofList_ne hdefault)
    have hmore : Applied names := fun other hother => hnames other (List.mem_cons_of_mem _ hother)
    show Outcome.filterAll c
        (.ofOption ((c.filter? (String.ofList name)).bind fun f => f v [])) names = _
    rw [plainFilters, List.map_cons, Filters.ofList, applyFilters, if_neg hnot]
    cases c.filter? (String.ofList name) with
    | none => exact filterAll_failed c names
    | some f =>
      show Outcome.filterAll c (.ofOption (f v [])) names
        = .ofOption ((f v []).bind (applyFilters c fs (Filters.ofList (plainFilters names))))
      cases f v [] with
      | none => exact filterAll_failed c names
      | some w => exact ih hmore w

theorem startsWithDefault_plain {names : List (List Char)} (hnames : Applied names) :
    (Filters.ofList (plainFilters names)).startsWithDefault = false := by
  cases names with
  | nil => rfl
  | cons name names =>
    exact beq_eq_false_iff_ne.2 (ofList_ne (hnames name List.mem_cons_self).2)

end Filters

namespace Bare

variable {f : Form}

/-- All filters of trees that keep their structure are applied. -/
theorem applied_names (hf : Bare f) : Applied f.names := by
  induction hf with
  | atom h hkept hprinted =>
    rw [(first_of_atom h).2.2]
    exact fun name hmem => absurd hmem List.not_mem_nil
  | filtered h hname hsafe hdefault ih =>
    intro other hmem
    rcases List.mem_append.1 hmem with hmem | hmem
    · exact ih other hmem
    · rw [List.mem_singleton.1 hmem]
      exact ⟨hsafe, hdefault⟩

/-- A tree without operators comes to its first leaf behind its filters. -/
theorem outcome_eq (hf : Bare f) (c : Context) (fs : Frames) :
    f.outcome c fs = Outcome.filterAll c (f.first.outcome c fs) f.names := by
  induction hf with
  | atom h hkept hprinted =>
    rw [(first_of_atom h).1, (first_of_atom h).2.2]
    rfl
  | @filtered arg name h hname hsafe hdefault ih =>
    show (arg.outcome c fs).filter _ = Outcome.filterAll c _ (arg.names ++ [name])
    rw [ih, Outcome.filterAll, Outcome.filterAll, List.foldl_append]
    rfl

/-- Filters make no literal of a reference. -/
theorem isLiteral_first (hf : Bare f) : f.isLiteral = f.first.isLiteral := by
  induction hf with
  | atom h hkept hprinted => rw [(first_of_atom h).1]
  | filtered h hname hsafe hdefault ih => exact ih

/-- A literal that decides a truth value stands without filters. -/
theorem names_of_literal (hf : Bare f) (hnot : f.filtersLiteral = false)
    (hliteral : f.first.isLiteral = true) : f.names = [] := by
  cases hf with
  | atom h hkept hprinted => exact (first_of_atom h).2.2
  | @filtered arg name h hname hsafe hdefault =>
    have hfirst : arg.isLiteral = true := h.isLiteral_first.trans hliteral
    rw [show (Form.filtered arg name).filtersLiteral = arg.isLiteral from rfl, hfirst] at hnot
    cases hnot

end Bare

/-! ### Leaves -/

/-- A literal term and its value, which counts as true as the term decides. -/
inductive Literal : Template.Term → Value → Prop where
  | bool (b : Bool) : Literal (.bool b) (.bool b)
  | num (n : Number) (h : (Value.num n).truthy = !n.toDouble.isZero) :
    Literal (numberTerm n) (.num n)
  | str (text : List Char) : Literal (.str text) (.str (String.ofList text))

/-- A leaf is a reference or a literal. -/
theorem TermOf.cases {f : Form} {t : Template.Term} (h : TermOf f t) (hprinted : f.Printed) :
    (∃ path, t = .ref path ∧ ∀ c fs, f.outcome c fs = (Form.ref path).outcome c fs) ∨
      ∃ v, Literal t v ∧ f.isLiteral = true ∧ ∀ c fs, f.outcome c fs = .value v := by
  induction h with
  | ref path => exact .inl ⟨path, rfl, fun _ _ => rfl⟩
  | truth b => exact .inr ⟨.bool b, .bool b, rfl, fun _ _ => rfl⟩
  | num text v =>
    exact .inr ⟨.num v, .num v (truthy_of_numeral? hprinted), rfl, fun _ _ => rfl⟩
  | str q text => exact .inr ⟨.str (String.ofList text), .str text, rfl, fun _ _ => rfl⟩
  | closed h ih => exact ih hprinted.2

/-- The value of a term, whatever reader of values it goes through. -/
def baseValue (c : Context) (fs : Frames) (t : Template.Term) : Option Value :=
  if t.isNumeric then (termNumber c fs t).map numberValue else termValue c fs t

/-- A literal has its value, if it is in range. -/
theorem baseValue_of_literal {t : Template.Term} {v : Value} (h : Literal t v) (c : Context)
    (fs : Frames) : baseValue c fs t = some v ∨ baseValue c fs t = none := by
  cases h with
  | bool b => exact .inl rfl
  | str text => exact .inl rfl
  | num n _ =>
    cases n with
    | double d => exact .inl rfl
    | int i =>
      have hbase : baseValue c fs (numberTerm (.int i))
          = if Number.minInt ≤ i ∧ i < Number.signedBound then some (.num (.int i)) else none := by
        show Option.map numberValue (if _ then some (some (.int i)) else none) = _
        split <;> rfl
      rw [hbase]
      split
      · exact .inl rfl
      · exact .inr rfl

/-! ### What expressions mean -/

/-- What an expression shows, if it shows anything. -/
def Shows (c : Context) (fs : Frames) (e : Expr) (o : Outcome) : Prop :=
  ∀ v, evalExpr c fs e = some v → o = .value v

/-- The truth value that an expression decides, if it decides any. -/
def Decides (c : Context) (fs : Frames) (e : Expr) (b : Bool) : Prop :=
  ∀ v, evalTruth c fs e = some v → v = b

/-- An outcome, negated or not. -/
def Outcome.signed (negated : Bool) (o : Outcome) : Outcome :=
  if negated then o.negate else o

section Operands

variable {c : Context} {fs : Frames} {f : Form} {t : Template.Term}

/-- A reference with filters, negated or not. -/
theorem finish?_ref (c : Context) (fs : Frames) {names : List (List Char)}
    (hnames : Applied names) (negated : Bool) (path : List Char) (default? : Option Value) :
    finish? (.ref path) negated (Filters.ofList (plainFilters names)) (fs.lookup? c.vars path)
        default? (applyFilters c fs (Filters.ofList (plainFilters names)))
      = (Outcome.signed negated
          (Outcome.filterAll c ((Form.ref path).outcome c fs) names)).value? := by
  have hoption : ∀ o : Option Value,
      (Outcome.signed negated (.ofOption o)).value? = o.map (negateIf negated) := by
    intro o
    cases o <;> cases negated <;> rfl
  have href : (Template.Term.ref path).isRef = true := rfl
  unfold finish?
  rw [if_pos href, startsWithDefault_plain hnames]
  rw [Form.outcome]
  cases hfound : fs.lookup? c.vars path with
  | none =>
    show (if (true && negated && !false) = true then some (Value.bool true) else none) = _
    rw [filterAll_absent]
    cases negated <;> rfl
  | some v =>
    have hvalue : refValue? (some v) default? false = some v := by
      cases v <;> rfl
    rw [hvalue, filterAll_value c fs hnames, hoption]

theorem isRef_of_literal {v : Value} (h : Literal t v) : t.isRef = false := by
  cases h with
  | num n _ => cases n <;> rfl
  | _ => rfl

theorem isLogical_of_literal {v : Value} (h : Literal t v) : t.isLogical = false := by
  cases h with
  | num n _ => cases n <;> rfl
  | _ => rfl

/-- A literal with filters, negated or not. -/
theorem finish?_literal {names : List (List Char)} (hnames : Applied names) (negated : Bool)
    {v : Value} (ht : Literal t v) (default? : Option Value) {w : Value}
    (h : finish? t negated (Filters.ofList (plainFilters names)) (baseValue c fs t) default?
      (applyFilters c fs (Filters.ofList (plainFilters names))) = some w) :
    Outcome.signed negated (Outcome.filterAll c (.value v) names) = .value w := by
  unfold finish? at h
  rw [isRef_of_literal ht] at h
  obtain ⟨u, hu, rfl⟩ := Option.map_eq_some_iff.1 h
  obtain ⟨v', hv', happly⟩ := Option.bind_eq_some_iff.1 hu
  rcases baseValue_of_literal ht c fs with hbase | hbase
  · rw [hbase] at hv'
    cases hv'
    rw [filterAll_value c fs hnames, happly]
    cases negated <;> rfl
  · rw [hbase] at hv'
    cases hv'

/-- What an operand shows, negated or not. -/
theorem Bare.shows (hf : Bare f) (ht : TermOf f.first t) (negated : Bool) :
    Shows c fs (.mk t negated (Filters.ofList (plainFilters f.names)))
      (Outcome.signed negated (f.outcome c fs)) := by
  intro w h
  have hnames := hf.applied_names
  rw [hf.outcome_eq]
  rcases ht.cases (Form.printed_first hf.printed) with ⟨path, rfl, hfirst⟩ | ⟨v, hv, -, hfirst⟩
  · rw [evalExpr] at h
    rw [hfirst]
    have hfinish := finish?_ref c fs hnames negated path
      (defaultValue c fs (Filters.ofList (plainFilters f.names)))
    exact Outcome.eq_of_value? (hfinish.symm.trans h)
  · rw [evalExpr, isLogical_of_literal hv] at h
    rw [hfirst]
    exact finish?_literal hnames negated hv _ h

/-- What a literal without filters decides. -/
theorem decides_of_literal {v : Value} (h : Literal t v) (negated : Bool) :
    Decides c fs (.mk t negated .nil) (Outcome.signed negated (.value v)).truth := by
  have hsigned : ∀ v : Value,
      (Outcome.signed negated (.value v)).truth = (v.truthy != negated) := by
    intro v
    cases negated with
    | false => exact (Bool.bne_false _).symm
    | true => exact (Bool.bne_true _).symm
  intro b hb
  rw [hsigned]
  cases h with
  | bool value => exact (Option.some.inj hb).symm
  | str text => exact (Option.some.inj hb).symm
  | num n htruthy =>
    rw [htruthy]
    cases n with
    | double d => exact (Option.some.inj hb).symm
    | int i =>
      obtain ⟨n, hn, rfl⟩ := Option.map_eq_some_iff.1 hb
      have hrange : (if Number.minInt ≤ i ∧ i < Number.signedBound then some (some (.int i))
        else none) = some n := hn
      split at hrange
      · cases hrange
        rfl
      · cases hrange

/-- What an operand decides, negated or not. -/
theorem Bare.decides (hf : Bare f) (ht : TermOf f.first t) (hnot : f.filtersLiteral = false)
    (negated : Bool) :
    Decides c fs (.mk t negated (Filters.ofList (plainFilters f.names)))
      (Outcome.signed negated (f.outcome c fs)).truth := by
  rw [hf.outcome_eq]
  rcases ht.cases (Form.printed_first hf.printed) with
    ⟨path, rfl, hfirst⟩ | ⟨v, hv, hliteral, hfirst⟩
  · intro b hb
    have hfinish := finish?_ref c fs (hf.applied_names) negated path
      (defaultValue c fs (Filters.ofList (plainFilters f.names)))
    have hvalue : b = ((finish? (.ref path) negated (Filters.ofList (plainFilters f.names))
        (fs.lookup? c.vars path) (defaultValue c fs (Filters.ofList (plainFilters f.names)))
        (applyFilters c fs (Filters.ofList (plainFilters f.names)))).map Value.truthy).getD
          false :=
      (Option.some.inj hb).symm
    rw [hvalue, hfinish, hfirst]
    cases Outcome.signed negated
      (Outcome.filterAll c ((Form.ref path).outcome c fs) f.names) <;> rfl
  · rw [hf.names_of_literal hnot hliteral, hfirst]
    exact decides_of_literal hv negated

theorem eq_num_of_number {v : Value} {n : Number}
    (h : (match v with
      | .num n => some (some n)
      | _ => none) = some (some n)) : v = .num n := by
  cases v with
  | num m =>
    cases h
    rfl
  | _ => cases h

/-- What counts as a number is shown as that number. -/
theorem Bare.evalExpr_of_number (hf : Bare f) (ht : TermOf f.first t) {n : Number}
    (h : evalNumber c fs (.mk t false (Filters.ofList (plainFilters f.names))) = some (some n)) :
    evalExpr c fs (.mk t false (Filters.ofList (plainFilters f.names))) = some (.num n) := by
  cases hnames : f.names with
  | cons name names =>
    rw [hnames] at h
    obtain ⟨v, hv, hmatch⟩ := Option.bind_eq_some_iff.1 h
    rw [← eq_num_of_number hmatch]
    exact hv
  | nil =>
    rw [hnames] at h
    have hterm : termNumber c fs t = some (some n) := h
    rcases ht.cases (Form.printed_first hf.printed) with ⟨path, rfl, -⟩ | ⟨v, hv, -, -⟩
    · obtain ⟨v, hv, hmatch⟩ := Option.bind_eq_some_iff.1 hterm
      show finish? (.ref path) false .nil (fs.lookup? c.vars path) none some = _
      rw [hv, eq_num_of_number hmatch]
      rfl
    · cases hv with
      | bool b => cases hterm
      | str text => cases hterm
      | num m _ =>
        cases m with
        | double d =>
          cases hterm
          rfl
        | int i =>
          show ((((termNumber c fs (.int i)).map numberValue).bind some).map (negateIf false)) = _
          rw [show termNumber c fs (.int i) = some (some n) from hterm]
          rfl

theorem Operand.shows {e : Expr} (hf : Bare f) (h : Operand f e) :
    Shows c fs e (f.outcome c fs) := by
  obtain ⟨ht⟩ := h
  exact hf.shows ht false

theorem Operand.outcome_of_number {e : Expr} (hf : Bare f) (h : Operand f e) {n : Number}
    (hn : evalNumber c fs e = some (some n)) : f.outcome c fs = .value (.num n) := by
  obtain ⟨ht⟩ := h
  exact hf.shows ht false _ (hf.evalExpr_of_number ht hn)

/-! ### Comparisons -/

/-- Order compares numbers, which are shown as they count. -/
theorem order_of_numbers {op : CompareOp} {l r : Form} {lhs rhs : Expr} (hbl : Bare l)
    (hbr : Bare r) (hl : Operand l lhs) (hr : Operand r rhs) {b : Bool}
    (h : ((evalNumber c fs lhs).bind fun a => (evalNumber c fs rhs).bind fun b =>
      match a, b with
      | some a, some b => some (compareNumbers op a.toDouble b.toDouble)
      | _, _ => none) = some b) :
    ∃ m n, l.outcome c fs = .value (.num m) ∧ r.outcome c fs = .value (.num n) ∧
      compareNumbers op m.toDouble n.toDouble = b := by
  obtain ⟨m, hm, h⟩ := Option.bind_eq_some_iff.1 h
  obtain ⟨n, hn, h⟩ := Option.bind_eq_some_iff.1 h
  split at h
  · exact ⟨_, _, hl.outcome_of_number hbl hm, hr.outcome_of_number hbr hn, Option.some.inj h⟩
  · cases h

/-- What a comparison of two operands decides is what their values compare to. -/
theorem termTruth_compare {op : CompareOp} {l r : Form} {lhs rhs : Expr} (hbl : Bare l)
    (hbr : Bare r) (hl : Operand l lhs) (hr : Operand r rhs) {b : Bool}
    (h : termTruth c fs (.compare op lhs rhs) = some b) :
    (l.outcome c fs).compare op (r.outcome c fs) = .value (.bool b) := by
  cases op with
  | eq =>
    obtain ⟨v, hv, h⟩ := Option.bind_eq_some_iff.1 h
    obtain ⟨w, hw, rfl⟩ := Option.map_eq_some_iff.1 h
    rw [hl.shows hbl v hv, hr.shows hbr w hw]
    rfl
  | ne =>
    obtain ⟨v, hv, h⟩ := Option.bind_eq_some_iff.1 h
    obtain ⟨w, hw, rfl⟩ := Option.map_eq_some_iff.1 h
    rw [hl.shows hbl v hv, hr.shows hbr w hw]
    rfl
  | lt =>
    obtain ⟨m, n, hm, hn, rfl⟩ := order_of_numbers hbl hbr hl hr h
    rw [hm, hn]
    rfl
  | le =>
    obtain ⟨m, n, hm, hn, rfl⟩ := order_of_numbers hbl hbr hl hr h
    rw [hm, hn]
    rfl
  | gt =>
    obtain ⟨m, n, hm, hn, rfl⟩ := order_of_numbers hbl hbr hl hr h
    rw [hm, hn]
    rfl
  | ge =>
    obtain ⟨m, n, hm, hn, rfl⟩ := order_of_numbers hbl hbr hl hr h
    rw [hm, hn]
    rfl

end Operands

/-! ### Operands of connectives -/

/-- A comparison or a connective shows what it decides. -/
theorem evalExpr_ofTerm {c : Context} {fs : Frames} {t : Template.Term}
    (h : t.isLogical = true) :
    evalExpr c fs (.ofTerm t) = (termTruth c fs t).map .bool := by
  have href : t.isRef = false := by
    cases t with
    | ref path => cases h
    | _ => rfl
  rw [Expr.ofTerm, evalExpr, h]
  unfold finish?
  rw [href]
  show (((termTruth c fs t).map fun b => Value.bool (b != false)).bind some).map (negateIf false)
    = (termTruth c fs t).map .bool
  cases termTruth c fs t with
  | none => rfl
  | some b => cases b <;> rfl

/-- An expression means a tree: it shows and decides what the tree comes to. -/
structure Means (c : Context) (fs : Frames) (f : Form) (e : Expr) : Prop where
  /-- The expression is marked as a negation where the tree is one. -/
  mark : e.withNegated f.isNegated = e
  shows : f.negatesCompared = false → Shows c fs e (f.outcome c fs)
  decides : f.filtersLiteral = false → Decides c fs e (f.outcome c fs).truth

namespace Means

variable {c : Context} {fs : Frames} {f : Form} {e : Expr}

/-- What is read as an operand means the operand. -/
theorem plain (h : Plain f e) : Means c fs f (e.withNegated false) := by
  cases h with
  | bare hf hoperand =>
    obtain ⟨ht⟩ := hoperand
    have hnegated : f.isNegated = false := by
      cases hf with
      | atom h hkept hprinted => cases h <;> rfl
      | filtered h hname hsafe hdefault => rfl
    refine ⟨?_, fun _ => hf.shows ht false, fun hnot => hf.decides ht hnot false⟩
    rw [hnegated]
    rfl
  | @compared op l r lhs rhs hbl hbr hl hr =>
    refine ⟨rfl, fun _ v h => ?_, fun _ v h => ?_⟩
    · have hshown := (evalExpr_ofTerm rfl).symm.trans h
      obtain ⟨b, hb, rfl⟩ := Option.map_eq_some_iff.1 hshown
      exact termTruth_compare hbl hbr hl hr hb
    · obtain ⟨b, hb, rfl⟩ := Option.map_eq_some_iff.1 h
      have hcompare := termTruth_compare hbl hbr hl hr hb
      show (b != false) = ((l.outcome c fs).compare op (r.outcome c fs)).truth
      rw [hcompare]
      exact Bool.bne_false _

/-- The negation of what is read as an operand means the negation. -/
theorem negated (h : Plain f e) : Means c fs (.negated f) (e.withNegated true) := by
  cases h with
  | bare hf hoperand =>
    obtain ⟨ht⟩ := hoperand
    exact ⟨rfl, fun _ => hf.shows ht true, fun hnot => hf.decides ht hnot true⟩
  | @compared op l r lhs rhs hbl hbr hl hr =>
    refine ⟨rfl, nofun, fun _ v h => ?_⟩
    obtain ⟨b, hb, rfl⟩ := Option.map_eq_some_iff.1 h
    have hcompare := termTruth_compare hbl hbr hl hr hb
    show (b != true) = ((l.outcome c fs).compare op (r.outcome c fs)).negate.truth
    rw [hcompare]
    exact Bool.bne_true _

/-- Parentheses keep the meaning of what is no negation. -/
theorem closed (h : Means c fs f e) (hnot : f.isNegated = false) :
    Means c fs (.closed f) (e.withNegated false) := by
  have hmark : e.withNegated false = e := hnot ▸ h.mark
  have hshown : f.negatesCompared = false := by
    cases f with
    | negated arg => cases hnot
    | _ => rfl
  rw [hmark]
  exact ⟨hmark, fun _ => h.shows hshown, h.decides⟩

end Means

end Runbook.Template.Action
