import Runbook.Proofs.Template.Meaning
/-!
# Connectives

Operands joined by connectives are read as a row, and `and` is climbed before `or`.

* `Form.head`, `Form.more` — the first operand of a tree of connectives, and the others with the
  connectives in front of them;
* `Aligned` — rows with the same connectives and related operands;
* `climb_aligned` — climbing respects a relation that joining respects;
* `climb_truth` — climbing over the truth values of a row gives the truth value of the tree, when
  the tree keeps its structure;
* `Means.joined` — what is read from a row means the tree.
-/

namespace Runbook.Template.Action

namespace Form

/-! ### Rows -/

/-- The first operand of a tree of connectives. -/
def head : Form → Form
  | joined _ lhs _ => lhs.head
  | f => f

/-- The further operands of a tree of connectives, each behind its connective. -/
def more : Form → List (LogicOp × Form)
  | joined op lhs rhs => lhs.more ++ (op, rhs.head) :: rhs.more
  | _ => []

/-- Operands joined by a connective. -/
def isJoined : Form → Bool
  | joined _ _ _ => true
  | _ => false

end Form

/-- The text of further operands. -/
def rowText (more : List (LogicOp × Form)) : List Char :=
  more.flatMap fun (op, f) => ' ' :: (connective op ++ ' ' :: f.text)

/-- An operand of a connective. -/
structure Part (f : Form) : Prop where
  kept : f.Kept = true
  printed : f.Printed
  single : f.isJoined = false

namespace Form

theorem text_eq_row (f : Form) : f.text = f.head.text ++ rowText f.more := by
  induction f with
  | joined op lhs rhs ihl ihr =>
    rw [text, head, more, rowText, List.flatMap_append, ← List.append_assoc]
    rw [show lhs.head.text ++ lhs.more.flatMap _ = lhs.text from ihl.symm, ihr]
    simp only [List.flatMap_cons, List.append_assoc, List.cons_append, rowText]
  | _ => exact (List.append_nil _).symm

/-- What a tree of connectives hands down to both sides comes down to its operands, which are no
connectives themselves. -/
theorem forall_operands {P : Form → Prop}
    (hsides : ∀ {op lhs rhs}, P (.joined op lhs rhs) → P lhs ∧ P rhs) {f : Form} (h : P f) :
    (P f.head ∧ f.head.isJoined = false) ∧ ∀ p ∈ f.more, P p.2 ∧ p.2.isJoined = false := by
  induction f with
  | joined op lhs rhs ihl ihr =>
    obtain ⟨hlhs, hrhs⟩ := hsides h
    obtain ⟨hl, hlmore⟩ := ihl hlhs
    obtain ⟨hr, hrmore⟩ := ihr hrhs
    exact ⟨hl, List.forall_mem_append.2 ⟨hlmore, List.forall_mem_cons.2 ⟨hr, hrmore⟩⟩⟩
  | _ => exact ⟨⟨h, rfl⟩, List.forall_mem_nil _⟩

/-- The operands of a tree that keeps its structure keep theirs. -/
theorem part_head {f : Form} (hkept : f.Kept = true) (hprinted : f.Printed) :
    Part f.head ∧ ∀ p ∈ f.more, Part p.2 := by
  have hsides : ∀ {op lhs rhs}, (joined op lhs rhs).Kept = true ∧ (joined op lhs rhs).Printed →
      (lhs.Kept = true ∧ lhs.Printed) ∧ (rhs.Kept = true ∧ rhs.Printed) := by
    rintro op lhs rhs ⟨hkept, hprinted⟩
    simp only [Kept, Bool.and_eq_true] at hkept
    exact ⟨⟨hkept.1.2, hprinted.1⟩, ⟨hkept.2.2, hprinted.2⟩⟩
  obtain ⟨⟨hhead, hsingle⟩, hmore⟩ :=
    forall_operands (P := fun f => f.Kept = true ∧ f.Printed) hsides ⟨hkept, hprinted⟩
  refine ⟨⟨hhead.1, hhead.2, hsingle⟩, fun p hmem => ?_⟩
  obtain ⟨hpart, hsingle⟩ := hmore p hmem
  exact ⟨hpart.1, hpart.2, hsingle⟩

/-- No operand of a connective is a filtered literal. -/
theorem filtersLiteral_head {f : Form} (hkept : f.Kept = true) (hnot : f.filtersLiteral = false) :
    f.head.filtersLiteral = false ∧ ∀ p ∈ f.more, p.2.filtersLiteral = false := by
  have hsides : ∀ {op lhs rhs},
      (joined op lhs rhs).Kept = true ∧ (joined op lhs rhs).filtersLiteral = false →
        (lhs.Kept = true ∧ lhs.filtersLiteral = false) ∧
          (rhs.Kept = true ∧ rhs.filtersLiteral = false) := by
    rintro op lhs rhs ⟨hkept, -⟩
    simp only [Kept, fitsIn, Bool.and_eq_true, Bool.not_eq_true'] at hkept
    exact ⟨⟨hkept.1.2, hkept.1.1.1⟩, ⟨hkept.2.2, hkept.2.1.1⟩⟩
  obtain ⟨⟨⟨-, hhead⟩, -⟩, hmore⟩ :=
    forall_operands (P := fun f => f.Kept = true ∧ f.filtersLiteral = false) hsides ⟨hkept, hnot⟩
  exact ⟨hhead, fun p hmem => (hmore p hmem).1.2⟩

end Form

/-! ### Climbing -/

section Climbing

variable {α β : Type}

/-- Rows with the same connectives and related operands. -/
inductive Aligned (r : α → β → Prop) : List (LogicOp × α) → List (LogicOp × β) → Prop where
  | nil : Aligned r [] []
  | cons (op : LogicOp) {a : α} {b : β} {as : List (LogicOp × α)} {bs : List (LogicOp × β)}
    (h : r a b) (hmore : Aligned r as bs) : Aligned r ((op, a) :: as) ((op, b) :: bs)

/-- What stands before the last weak operator, on both sides. -/
inductive AlignedLow (r : α → β → Prop) : Option (α × LogicOp) → Option (β × LogicOp) → Prop where
  | none : AlignedLow r none none
  | some (op : LogicOp) {a : α} {b : β} (h : r a b) : AlignedLow r (some (a, op)) (some (b, op))

theorem Aligned.ne_nil {r : α → β → Prop} {as : List (LogicOp × α)} {bs : List (LogicOp × β)}
    (h : Aligned r as bs) (hne : as ≠ []) : bs ≠ [] := by
  cases h with
  | nil => exact absurd rfl hne
  | cons op h hmore => exact List.cons_ne_nil _ _

theorem Aligned.imp {r s : α → β → Prop} {as : List (LogicOp × α)}
    {bs : List (LogicOp × β)} (h : Aligned r as bs)
    (himp : ∀ p ∈ as, ∀ b, r p.2 b → s p.2 b) : Aligned s as bs := by
  induction h with
  | nil => exact .nil
  | cons op h hmore ih =>
    exact .cons op (himp _ List.mem_cons_self _ h)
      (ih fun p hp => himp p (List.mem_cons_of_mem _ hp))

/-- The operands of a row, seen through a function. -/
theorem Aligned.map {γ : Type} {r : γ → β → Prop} {f : α → γ} {as : List (LogicOp × α)}
    {bs : List (LogicOp × β)} (h : Aligned (fun a b => r (f a) b) as bs) :
    Aligned r (as.map fun p => (p.1, f p.2)) bs := by
  induction h with
  | nil => exact .nil
  | cons op h hmore ih => exact .cons op h ih

theorem climb_tight {tight : LogicOp → Bool} {join : LogicOp → α → α → α} {op : LogicOp}
    (h : tight op = true) (low : Option (α × LogicOp)) (current a : α)
    (rest : List (LogicOp × α)) :
    climb tight join low current ((op, a) :: rest)
      = climb tight join low (join op current a) rest := by
  cases low with
  | none => exact if_pos h
  | some prev => exact if_pos h

/-- Climbing respects a relation that joining respects. -/
theorem climb_aligned {r : α → β → Prop} {tight : LogicOp → Bool} {join : LogicOp → α → α → α}
    {join' : LogicOp → β → β → β}
    (hjoin : ∀ op {a a' b b'}, r a b → r a' b' → r (join op a a') (join' op b b'))
    {as : List (LogicOp × α)} {bs : List (LogicOp × β)} (h : Aligned r as bs)
    {low : Option (α × LogicOp)} {low' : Option (β × LogicOp)} (hlow : AlignedLow r low low')
    {a : α} {b : β} (hcurrent : r a b) :
    r (climb tight join low a as) (climb tight join' low' b bs) := by
  induction h generalizing low low' a b with
  | nil =>
    cases hlow with
    | none => exact hcurrent
    | some op h => exact hjoin op h hcurrent
  | cons op h hmore ih =>
    by_cases htight : tight op = true
    · rw [climb_tight htight, climb_tight htight]
      exact ih hlow (hjoin op hcurrent h)
    · cases hlow with
      | none =>
        simp only [climb, if_neg htight]
        exact ih (.some op hcurrent) h
      | some prev hprev =>
        simp only [climb, if_neg htight]
        exact ih (.some op (hjoin prev hprev hcurrent)) h

end Climbing

/-! ### Truth values -/

section Truth

variable (c : Context) (fs : Frames)

/-- The truth value that a tree comes to. -/
def Form.holds (f : Form) : Bool :=
  (f.outcome c fs).truth

/-- The truth values of a row. -/
def rowTruths (more : List (LogicOp × Form)) : List (LogicOp × Bool) :=
  more.map fun p => (p.1, p.2.holds c fs)

theorem rowTruths_joined (op : LogicOp) (lhs rhs : Form) (rest : List (LogicOp × Bool)) :
    rowTruths c fs (Form.joined op lhs rhs).more ++ rest
      = rowTruths c fs lhs.more
          ++ (op, rhs.head.holds c fs) :: (rowTruths c fs rhs.more ++ rest) := by
  simp only [rowTruths, Form.more, List.map_append, List.map_cons, List.append_assoc,
    List.cons_append]

/-- A truth value that may stand in front of a conjunction. -/
def andPre : Option Bool → Bool → Bool
  | none, b => b
  | some a, b => a && b

/-- A truth value that may stand in front of a disjunction. -/
def orPre : Option Bool → Bool → Bool
  | none, b => b
  | some a, b => a || b

/-- Operands that are all joined by `and` are climbed one after the other. -/
theorem climb_conjunction {f : Form} (hkept : f.Kept = true) (hand : f.isDisjunction = false)
    (low : Option (Bool × LogicOp)) (pre : Option Bool) (rest : List (LogicOp × Bool)) :
    climb LogicOp.bindsTighter joinTruth low (andPre pre (f.head.holds c fs))
        (rowTruths c fs f.more ++ rest)
      = climb LogicOp.bindsTighter joinTruth low (andPre pre (f.holds c fs)) rest := by
  induction f generalizing pre rest with
  | joined op lhs rhs ihl ihr =>
    cases op with
    | or => cases hand
    | and =>
      simp only [Form.Kept, Form.fitsIn, Bool.and_eq_true, Bool.not_eq_true'] at hkept
      have hassoc : (andPre pre (lhs.holds c fs) && rhs.holds c fs)
          = andPre pre ((Form.joined .and lhs rhs).holds c fs) := by
        cases pre with
        | none => rfl
        | some a => exact Bool.and_assoc _ _ _
      rw [rowTruths_joined]
      show climb _ _ low (andPre pre (lhs.head.holds c fs)) _ = _
      rw [ihl hkept.1.2 hkept.1.1.2, climb_tight rfl]
      show climb _ _ low (andPre (some (andPre pre (lhs.holds c fs))) (rhs.head.holds c fs)) _ = _
      rw [ihr hkept.2.2 hkept.2.1.2]
      show climb _ _ low (andPre pre (lhs.holds c fs) && rhs.holds c fs) rest = _
      rw [hassoc]
  | _ => rfl

/-- What may follow a disjunction: nothing, or a further alternative. -/
def Alternates : List (LogicOp × Bool) → Prop
  | [] => True
  | (op, _) :: _ => op = .or

/-- Alternatives are collected from the left. -/
theorem climb_disjunction {f : Form} (hkept : f.Kept = true) (low : Option Bool)
    {rest : List (LogicOp × Bool)} (hrest : Alternates rest) :
    climb LogicOp.bindsTighter joinTruth (low.map (·, LogicOp.or)) (f.head.holds c fs)
        (rowTruths c fs f.more ++ rest)
      = climb LogicOp.bindsTighter joinTruth (low.map (·, LogicOp.or)) (f.holds c fs) rest := by
  induction f generalizing low rest with
  | joined op lhs rhs ihl ihr =>
    cases op with
    | and => exact climb_conjunction c fs hkept rfl _ none rest
    | or =>
      simp only [Form.Kept, Form.fitsIn, Bool.and_eq_true, Bool.not_eq_true'] at hkept
      -- an alternative moves everything before it to the low part
      have hstep : ∀ (low : Option Bool) (current b : Bool) (more : List (LogicOp × Bool)),
          climb LogicOp.bindsTighter joinTruth (low.map (·, LogicOp.or)) current ((.or, b) :: more)
            = climb LogicOp.bindsTighter joinTruth
                ((some (orPre low current)).map (·, LogicOp.or)) b more := by
        intro low current b more
        cases low <;> rfl
      have hassoc : (orPre low (lhs.holds c fs) || rhs.holds c fs)
          = orPre low ((Form.joined .or lhs rhs).holds c fs) := by
        cases low with
        | none => rfl
        | some a => exact Bool.or_assoc _ _ _
      rw [rowTruths_joined]
      show climb _ _ _ (lhs.head.holds c fs) _ = _
      have hnext : Alternates ((.or, rhs.head.holds c fs) :: (rowTruths c fs rhs.more ++ rest)) :=
        rfl
      rw [ihl hkept.1.2 low hnext, hstep, ihr hkept.2.2 _ hrest]
      cases rest with
      | nil =>
        show (orPre low (lhs.holds c fs) || rhs.holds c fs) = _
        rw [hassoc]
        cases low <;> rfl
      | cons next rest =>
        obtain ⟨op, b⟩ := next
        cases hrest
        rw [hstep, hstep]
        show climb _ _ ((some (orPre low (lhs.holds c fs) || rhs.holds c fs)).map _) b rest = _
        rw [hassoc]
  | _ => rfl

/-- **Climbing over a row gives the truth value of the tree.** -/
theorem climb_truth {f : Form} (hkept : f.Kept = true) :
    climb LogicOp.bindsTighter joinTruth none (f.head.holds c fs) (rowTruths c fs f.more)
      = f.holds c fs := by
  have hnil : Alternates [] := trivial
  have hclimb := climb_disjunction c fs hkept none hnil
  rw [List.append_nil] at hclimb
  exact hclimb

end Truth

/-! ### Rows of expressions -/

section Expressions

variable {c : Context} {fs : Frames}

/-- Joined expressions decide what their truth values are joined to. -/
theorem decides_joinLogic (op : LogicOp) {a b : Bool} {lhs rhs : Expr} (ha : Decides c fs lhs a)
    (hb : Decides c fs rhs b) : Decides c fs (joinLogic op lhs rhs) (joinTruth op a b) := by
  intro v h
  obtain ⟨w, hw, rfl⟩ := Option.map_eq_some_iff.1 h
  show (w != false) = joinTruth op a b
  rw [Bool.bne_false]
  cases op with
  | or =>
    obtain ⟨x, hx, hw⟩ := Option.bind_eq_some_iff.1 hw
    obtain rfl := ha x hx
    cases x with
    | true => exact (Option.some.inj hw).symm
    | false => exact hb w hw
  | and =>
    obtain ⟨x, hx, hw⟩ := Option.bind_eq_some_iff.1 hw
    obtain rfl := ha x hx
    cases x with
    | true => exact hb w hw
    | false => exact (Option.some.inj hw).symm

/-- An expression that is a connective of two others. -/
def IsJoin (e : Expr) : Prop :=
  ∃ op lhs rhs, e = joinLogic op lhs rhs

/-- Climbing joins as soon as there is something to join. -/
theorem isJoin_climb {low : Option (Expr × LogicOp)} {current : Expr}
    {row : List (LogicOp × Expr)} (h : low.isSome = true ∨ IsJoin current ∨ row ≠ []) :
    IsJoin (climb LogicOp.bindsTighter joinLogic low current row) := by
  induction row generalizing low current with
  | nil =>
    cases low with
    | none => exact (h.resolve_left nofun).resolve_right fun hne => hne rfl
    | some l => exact ⟨l.2, l.1, current, rfl⟩
  | cons next row ih =>
    obtain ⟨op, e⟩ := next
    cases op with
    | and =>
      rw [climb_tight rfl]
      exact ih (.inr (.inl ⟨.and, current, e, rfl⟩))
    | or =>
      cases low with
      | none => exact ih (.inl rfl)
      | some l => exact ih (.inl rfl)

/-- A connective shows what it decides. -/
theorem shows_of_decides {e : Expr} (h : IsJoin e) {b : Bool} (hb : Decides c fs e b) :
    Shows c fs e (.value (.bool b)) := by
  obtain ⟨op, lhs, rhs, rfl⟩ := h
  intro v hv
  have hshown := (evalExpr_ofTerm rfl).symm.trans hv
  obtain ⟨w, hw, rfl⟩ := Option.map_eq_some_iff.1 hshown
  have hdecided : evalTruth c fs (joinLogic op lhs rhs) = some w := by
    show (termTruth c fs (.logic op lhs rhs)).map (· != false) = some w
    rw [hw, Option.map_some, Bool.bne_false]
  rw [hb w hdecided]

/-- **What is read from a row means the tree**, when the tree keeps its structure. -/
theorem Means.joined {f : Form} (hjoined : f.isJoined = true) (hkept : f.Kept = true)
    {first : Expr} {row : List (LogicOp × Expr)} (hfirst : Means c fs f.head first)
    (hrow : Aligned (Means c fs) f.more row) :
    Means c fs f (climb LogicOp.bindsTighter joinLogic none first row) := by
  cases f with
  | joined op lhs rhs =>
    obtain ⟨hhead, hmore⟩ := Form.filtersLiteral_head hkept rfl
    have hdecides : Decides c fs (climb LogicOp.bindsTighter joinLogic none first row)
        ((Form.joined op lhs rhs).holds c fs) := by
      have htruths : Aligned (fun b e => Decides c fs e b)
          (rowTruths c fs (Form.joined op lhs rhs).more) row :=
        (hrow.imp (s := fun f e => Decides c fs e (f.holds c fs))
          fun p hp e he => he.decides (hmore p hp)).map
      rw [← climb_truth c fs hkept]
      exact climb_aligned (r := fun b e => Decides c fs e b)
        (fun op _ _ _ _ ha hb => decides_joinLogic op ha hb) htruths .none
        (hfirst.decides hhead)
    have hne : row ≠ [] := hrow.ne_nil (List.append_ne_nil_of_right_ne_nil _ (List.cons_ne_nil _ _))
    have hjoin : IsJoin (climb LogicOp.bindsTighter joinLogic none first row) :=
      isJoin_climb (.inr (.inr hne))
    obtain ⟨op', lhs', rhs', hclimb⟩ := hjoin
    refine ⟨?_, fun _ => shows_of_decides ⟨op', lhs', rhs', hclimb⟩ hdecides, fun _ => hdecides⟩
    rw [hclimb]
    rfl
  | _ => cases hjoined

end Expressions

end Runbook.Template.Action
