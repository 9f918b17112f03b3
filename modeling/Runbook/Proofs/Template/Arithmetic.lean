import Runbook.Proofs.Template.Subscript
/-!
# How arithmetic reads actions

Actions hold no arithmetic, but their leaves are read as terms of arithmetic.

* `Form.first`, `Form.after` — the first leaf or group of a tree, and what is printed behind it;
* `Continues` — a text that goes on with an operator;
* `TermOf` — the term that a leaf stands for;
* `readArithmetic_text` — arithmetic reads the first leaf of a tree and nothing else; a group in
  parentheses is read only where it is one leaf.

A reader that succeeds is looked at backwards, so the fuel does not matter.
-/

namespace Runbook.Template.Action

open Runbook.Text

namespace Form

/-! ### First leaves -/

/-- The first leaf or group of a tree. -/
def first : Form → Form
  | filtered arg _ => arg.first
  | compared _ lhs _ => lhs.first
  | joined _ lhs _ => lhs.first
  | f => f

/-- What is printed behind the first leaf or group of a tree. -/
def after : Form → List Char
  | filtered arg name => arg.after ++ (bar ++ name)
  | compared op lhs rhs => lhs.after ++ ' ' :: (operator op ++ ' ' :: rhs.text)
  | joined op lhs rhs => lhs.after ++ ' ' :: (connective op ++ ' ' :: rhs.text)
  | _ => []

/-- A leaf, or a group in parentheses. -/
inductive Atom : Form → Prop where
  | ref (path : List Char) : Atom (ref path)
  | truth (b : Bool) : Atom (truth b)
  | num (text : List Char) (v : Number) : Atom (num text v)
  | str (q : Char) (text : List Char) : Atom (str q text)
  | closed (inner : Form) : Atom (closed inner)

theorem text_eq_first (f : Form) : f.text = f.first.text ++ f.after := by
  induction f with
  | filtered arg name ih => rw [first, after, ← List.append_assoc, ← ih]; rfl
  | compared op lhs rhs ih _ => rw [first, after, ← List.append_assoc, ← ih]; rfl
  | joined op lhs rhs ih _ => rw [first, after, ← List.append_assoc, ← ih]; rfl
  | _ => exact (List.append_nil _).symm

theorem atom_first {f : Form} (h : f.opensPlain = true) : f.first.Atom := by
  induction f with
  | ref path => exact .ref path
  | truth b => exact .truth b
  | num text v => exact .num text v
  | str q text => exact .str q text
  | filtered arg name ih => exact ih h
  | compared op lhs rhs ih _ => exact ih h
  | negated arg ih => cases h
  | joined op lhs rhs ih _ => exact ih h
  | closed inner _ => exact .closed inner

theorem kept_first {f : Form} (h : f.Kept = true) : f.first.Kept = true := by
  induction f with
  | filtered arg name ih =>
    simp only [Kept, Bool.and_eq_true] at h
    exact ih h.1.1.2
  | compared op lhs rhs ih _ =>
    simp only [Kept, Bool.and_eq_true] at h
    exact ih h.1.2
  | joined op lhs rhs ih _ =>
    simp only [Kept, Bool.and_eq_true] at h
    exact ih h.1.2
  | _ => exact h

theorem printed_first {f : Form} (h : f.Printed) : f.first.Printed := by
  induction f with
  | filtered arg name ih => exact ih h.1
  | compared op lhs rhs ih _ => exact ih h.1
  | joined op lhs rhs ih _ => exact ih h.1
  | _ => exact h

end Form

/-- What an operator starts with, behind a blank. -/
def operatorStarts : List Char := ['|', '=', '!', '<', '>', 'o', 'a']

/-- A text that goes on with an operator. -/
def Continues (cs : List Char) : Prop :=
  ∃ c rest, cs = ' ' :: c :: rest ∧ c ∈ operatorStarts

namespace Continues

variable {cs : List Char}

theorem append (h : Continues cs) (more : List Char) : Continues (cs ++ more) := by
  obtain ⟨c, rest, rfl, hc⟩ := h
  exact ⟨c, rest ++ more, rfl, hc⟩

theorem operator (op : CompareOp) (rest : List Char) :
    Continues (' ' :: (operator op ++ rest)) := by
  cases op <;> exact ⟨_, _, rfl, by decide⟩

theorem connective (op : LogicOp) (rest : List Char) :
    Continues (' ' :: (connective op ++ rest)) := by
  cases op <;> exact ⟨_, _, rfl, by decide⟩

theorem bar (name : List Char) : Continues (bar ++ name) :=
  ⟨'|', ' ' :: name, rfl, by decide⟩

theorem tail (h : Continues cs) : Tail termEnds cs := by
  obtain ⟨c, rest, rfl, hc⟩ := h
  have hsub : operatorStarts ⊆ termEnds := by decide
  exact .spaced (hsub hc) rest

theorem nexts (h : Continues cs) : Nexts operatorStarts cs := by
  obtain ⟨c, rest, rfl, hc⟩ := h
  have hspace : ∀ c ∈ operatorStarts, isSpace c = false := by decide
  exact ⟨c, rest, skip_cons (hspace c hc) rest, hc⟩

end Continues

/-- Behind the first leaf of a tree there is nothing, or an operator. -/
theorem Form.after_cases {f : Form} (h : f.opensPlain = true) :
    (f.first = f ∧ f.after = []) ∨ Continues f.after := by
  have hcontinues : ∀ {g : Form} {more : List Char}, (g.first = g ∧ g.after = []) ∨
      Continues g.after → Continues more → Continues (g.after ++ more) := by
    intro g more hg hmore
    rcases hg with ⟨-, hnil⟩ | hg
    · rw [hnil]
      exact hmore
    · exact hg.append more
  induction f with
  | filtered arg name ih => exact .inr (hcontinues (ih h) (.bar name))
  | compared op lhs rhs ih _ => exact .inr (hcontinues (ih h) (.operator op _))
  | joined op lhs rhs ih _ => exact .inr (hcontinues (ih h) (.connective op _))
  | negated arg ih => cases h
  | _ => exact .inl ⟨rfl, rfl⟩

/-- What stands behind the first leaf of a tree. -/
theorem Form.tail_after {f : Form} (h : f.opensPlain = true) {R : List Char}
    (hR : Tail termEnds R) : Tail termEnds (f.after ++ R) := by
  rcases f.after_cases h with ⟨-, hnil⟩ | hafter
  · rw [hnil]
    exact hR
  · exact (hafter.append R).tail

/-! ### Arithmetic -/

/-- The term that a leaf stands for, in parentheses or not. -/
inductive TermOf : Form → Template.Term → Prop where
  | ref (path : List Char) : TermOf (.ref path) (.ref path)
  | truth (b : Bool) : TermOf (.truth b) (.bool b)
  | num (text : List Char) (v : Number) : TermOf (.num text v) (numberTerm v)
  | str (q : Char) (text : List Char) : TermOf (.str q text) (.str text)
  | closed {inner : Form} {t : Template.Term} (h : TermOf inner t) : TermOf (.closed inner) t

/-- Arithmetic in parentheses. -/
def readGroup (fuel : Nat) (cs : List Char) : Read Template.Term :=
  (readSymbol "(" cs).bind fun rest =>
    (readArithmetic fuel rest).bind fun (t, rest) =>
      (readSymbol ")" rest).map fun rest => (t, rest)

theorem readOperand_succ (fuel : Nat) (cs : List Char) :
    readOperand (fuel + 1) cs
      = readFirst [readGroup fuel, readBoolTerm, readTest fuel true, readTest fuel false,
          readMacroCall fuel, readCall fuel, readRefTerm, readDoubleTerm, readIntTerm] cs :=
  rfl

theorem readGroup_of_head {cs rest : List Char} {c : Char} (hcs : skip cs = c :: rest)
    (hc : c ≠ '(') (fuel : Nat) : readGroup fuel cs = none := by
  have hsymbol : readSymbol "(" cs = none := by
    unfold readSymbol
    rw [hcs]
    exact dropStart?_of_ne hc.symm _ _
  unfold readGroup
  rw [hsymbol]
  rfl

section Words

variable {cs rest : List Char} {c : Char}

theorem readNamedCall_of_not_start (hcs : skip cs = c :: rest) (hc : isIdentStart c = false)
    (fuel : Nat) : readNamedCall fuel cs = none := by
  cases fuel with
  | zero => rfl
  | succ fuel =>
    rw [readNamedCall, readIdent_of_not_start hcs hc]
    rfl

theorem readCall_of_not_start (hcs : skip cs = c :: rest) (hc : isIdentStart c = false)
    (fuel : Nat) : readCall fuel cs = none := by
  cases fuel with
  | zero => rfl
  | succ fuel =>
    rw [readCall, readNamedCall_of_not_start hcs hc]
    rfl

theorem readTest_of_not_start (hcs : skip cs = c :: rest) (hc : isIdentStart c = false)
    (fuel : Nat) (negated : Bool) : readTest fuel negated cs = none := by
  cases fuel with
  | zero => rfl
  | succ fuel =>
    rw [readTest, readPath_of_not_start hcs hc]
    rfl

theorem readMacroCall_of_not_start (hcs : skip cs = c :: rest) (hc : isIdentStart c = false)
    (fuel : Nat) : readMacroCall fuel cs = none := by
  cases fuel with
  | zero => rfl
  | succ fuel =>
    rw [readMacroCall, readIdent_of_not_start hcs hc]
    rfl

theorem readRefTerm_of_not_start (hcs : skip cs = c :: rest) (hc : isIdentStart c = false) :
    readRefTerm cs = none := by
  unfold readRefTerm
  rw [readPath_of_not_start hcs hc]
  rfl

theorem readBoolTerm_of_not_start (hcs : skip cs = c :: rest) (hc : isIdentStart c = false) :
    readBoolTerm cs = none := by
  unfold readBoolTerm
  rw [hcs, readBool_of_head hc]
  rfl

/-- What starts like no word is a group in parentheses or a numeral. -/
theorem readOperand_of_not_start (hcs : skip cs = c :: rest) (hc : isIdentStart c = false)
    (fuel : Nat) :
    readOperand (fuel + 1) cs = readFirst [readGroup fuel, readDoubleTerm, readIntTerm] cs := by
  rw [readOperand_succ]
  cases hgroup : readGroup fuel cs with
  | some found => rw [readFirst_of_some hgroup, readFirst_of_some hgroup]
  | none =>
    rw [readFirst_of_none hgroup, readFirst_of_none hgroup,
      readFirst_of_none (readBoolTerm_of_not_start hcs hc),
      readFirst_of_none (readTest_of_not_start hcs hc fuel true),
      readFirst_of_none (readTest_of_not_start hcs hc fuel false),
      readFirst_of_none (readMacroCall_of_not_start hcs hc fuel),
      readFirst_of_none (readCall_of_not_start hcs hc fuel),
      readFirst_of_none (readRefTerm_of_not_start hcs hc)]

theorem readNumeral_of_not_numeral (hcs : skip cs = c :: rest)
    (hc : ¬(c = '-' ∨ c.isDigit = true)) : readDoubleTerm cs = none ∧ readIntTerm cs = none := by
  unfold readDoubleTerm readDouble readIntTerm readInt
  rw [hcs, readSigned_of_not_numeral hc]
  exact ⟨rfl, rfl⟩

/-- Nothing is read where neither a word nor a numeral nor a group starts. -/
theorem readOperand_of_head (hcs : skip cs = c :: rest) (hc : isIdentStart c = false)
    (hparen : c ≠ '(') (hnum : ¬(c = '-' ∨ c.isDigit = true)) (fuel : Nat) :
    readOperand fuel cs = none := by
  cases fuel with
  | zero => rfl
  | succ fuel =>
    obtain ⟨hdouble, hint⟩ := readNumeral_of_not_numeral hcs hnum
    rw [readOperand_of_not_start hcs hc, readFirst_of_none (readGroup_of_head hcs hparen fuel),
      readFirst_of_none hdouble, readFirst_of_none hint]
    rfl

end Words

section Paths

variable {cs path R : List Char}

/-- In front of a tail, the name at the front of a path is not called. -/
theorem readNamedCall_of_path (hpath : IsReference path) (hcs : skip cs = path ++ R)
    (hR : Tail termEnds R) (fuel : Nat) : readNamedCall fuel cs = none := by
  cases fuel with
  | zero => rfl
  | succ fuel =>
    obtain ⟨name, rest, hname, hrest⟩ := readIdent_of_skip hpath hcs hR
    rw [readNamedCall, hname]
    show (readSymbol "(" rest).bind _ = none
    rw [hrest.readSymbol (by decide)]
    rfl

theorem readCall_of_path (hpath : IsReference path) (hcs : skip cs = path ++ R)
    (hR : Tail termEnds R) (fuel : Nat) : readCall fuel cs = none := by
  cases fuel with
  | zero => rfl
  | succ fuel =>
    rw [readCall, readNamedCall_of_path hpath hcs hR]
    rfl

theorem readMacroCall_of_path (hpath : IsReference path) (hcs : skip cs = path ++ R)
    (hR : Tail termEnds R) (fuel : Nat) : readMacroCall fuel cs = none := by
  cases fuel with
  | zero => rfl
  | succ fuel =>
    obtain ⟨name, rest, hname, hrest⟩ := readIdent_of_skip hpath hcs hR
    rw [readMacroCall, hname]
    show (readSymbol "::" rest).bind _ = none
    rw [hrest.readSymbol (by decide)]
    rfl

theorem readTest_of_path (hpath : IsReference path) (hcs : skip cs = path ++ R)
    (hR : Tail termEnds R) (fuel : Nat) (negated : Bool) : readTest fuel negated cs = none := by
  cases fuel with
  | zero => rfl
  | succ fuel =>
    rw [readTest, readPath_of_skip hpath hcs hR]
    show (readSymbol "is" R).bind _ = none
    rw [hR.readSymbol (by decide)]
    rfl

theorem readRefTerm_of_path (hpath : IsReference path) (hcs : skip cs = path ++ R)
    (hR : Tail termEnds R) : readRefTerm cs = some (.ref path, R) := by
  unfold readRefTerm
  rw [readPath_of_skip hpath hcs hR]
  rfl

/-- A path that does not start with a truth value is read as a reference. -/
theorem readOperand_of_path (hpath : IsReference path) (hbool : readBool path = none)
    (hcs : skip cs = path ++ R) (hR : Tail termEnds R) (fuel : Nat) :
    readOperand (fuel + 1) cs = some (.ref path, R) := by
  obtain ⟨c, more, hhead, hc⟩ := hpath.head
  have hparen : c ≠ '(' := by
    rintro rfl
    cases hc
  have hcs' : skip cs = c :: (more ++ R) := by rw [hcs, hhead]; rfl
  have hnone : readBoolTerm cs = none := by
    unfold readBoolTerm
    rw [hcs, readBool_append hR hbool]
    rfl
  rw [readOperand_succ, readFirst_of_none (readGroup_of_head hcs' hparen fuel),
    readFirst_of_none hnone, readFirst_of_none (readTest_of_path hpath hcs hR fuel true),
    readFirst_of_none (readTest_of_path hpath hcs hR fuel false),
    readFirst_of_none (readMacroCall_of_path hpath hcs hR fuel),
    readFirst_of_none (readCall_of_path hpath hcs hR fuel),
    readFirst_of_some (readRefTerm_of_path hpath hcs hR)]

end Paths

theorem readMany_of_none {α : Type} {read : List Char → Read α} {cs : List Char}
    (h : read cs = none) (fuel : Nat) : readMany read fuel cs = ([], cs) := by
  cases fuel with
  | zero => rfl
  | succ fuel =>
    unfold readMany
    rw [h]

theorem readMany_of_some {α : Type} {read : List Char → Read α} {cs rest : List Char} {a : α}
    (h : read cs = some (a, rest)) (fuel : Nat) :
    readMany read (fuel + 1) cs
      = (a :: (readMany read fuel rest).1, (readMany read fuel rest).2) := by
  conv => lhs; unfold readMany
  rw [h]

/-- Behind a term there is no arithmetic. -/
theorem Tail.readMath {R : List Char} (h : Tail termEnds R) {α : Type}
    {read : List Char → Read α} (hread : ∀ c ∈ tagEnds, ∀ rest, read (c :: rest) = none) :
    readBoth readMathOp read R = none := by
  cases h with
  | closing rest => rfl
  | @trimming c hc rest =>
    show (read (c :: rest)).map _ = none
    rw [hread c hc]
    rfl
  | statement rest =>
    show (read ('}' :: rest)).map _ = none
    rw [hread '}' (by decide)]
    rfl
  | @spaced c hc rest =>
    have hspace : ∀ c ∈ termEnds, isSpace c = false := by decide
    have hnexts : Nexts termEnds (' ' :: c :: rest) := ⟨c, rest, skip_cons (hspace c hc) rest, hc⟩
    exact readBoth_of_none (hnexts.readMathOp (by decide)) read

theorem readOperand_of_tagEnd (fuel : Nat) {c : Char} (hc : c ∈ tagEnds) (rest : List Char) :
    readOperand fuel (c :: rest) = none := by
  have hends : ∀ c ∈ tagEnds, isSpace c = false ∧ isIdentStart c = false ∧ c ≠ '(' ∧
      ¬(c = '-' ∨ c.isDigit = true) := by decide
  obtain ⟨hspace, hstart, hparen, hnumeral⟩ := hends c hc
  exact readOperand_of_head (skip_cons hspace rest) hstart hparen hnumeral fuel

/-- Arithmetic without operators is one operand. -/
theorem readArithmetic_of_operand {fuel : Nat} {cs R : List Char} {t : Template.Term}
    (h : readOperand fuel cs = some (t, R)) (hR : Tail termEnds R) :
    readArithmetic (fuel + 1) cs = some (t, R) := by
  rw [readArithmetic, h]
  show some (climb _ _ none t (readMany (readBoth readMathOp (readOperand fuel)) R.length R).1,
    (readMany (readBoth readMathOp (readOperand fuel)) R.length R).2) = _
  rw [readMany_of_none (hR.readMath fun _ => readOperand_of_tagEnd fuel)]
  rfl

theorem readOperand_of_truth {b : Bool} {cs R : List Char}
    (hcs : skip cs = (Form.truth b).text ++ R) (fuel : Nat) :
    readOperand (fuel + 1) cs = some (.bool b, R) := by
  have hbool : readBoolTerm cs = some (.bool b, R) := by
    unfold readBoolTerm
    rw [hcs]
    cases b <;> rfl
  have hgroup : readGroup fuel cs = none := by
    cases b with
    | false => exact readGroup_of_head hcs (by decide) fuel
    | true => exact readGroup_of_head hcs (by decide) fuel
  rw [readOperand_succ, readFirst_of_none hgroup, readFirst_of_some hbool]

theorem readOperand_of_num {text cs R : List Char} {v : Number} (hnum : numeral? text = some v)
    (hcs : skip cs = text ++ R) (hR : Tail termEnds R) (fuel : Nat) :
    readOperand (fuel + 1) cs = some (numberTerm v, R) := by
  obtain ⟨c, more, rfl, hc⟩ := numeral?_head hnum
  have hparen : c ≠ '(' := by
    rintro rfl
    revert hc
    decide
  rw [readOperand_of_not_start hcs (isIdentStart_of_numeral hc),
    readFirst_of_none (readGroup_of_head hcs hparen fuel), readNumeral_of_skip hnum hcs hR]

theorem readOperand_of_str {q : Char} {text cs R : List Char} (hq : q ∈ quotes)
    (hcs : skip cs = (Form.str q text).text ++ R) (fuel : Nat) : readOperand fuel cs = none := by
  have hquote : ∀ q ∈ quotes,
      isIdentStart q = false ∧ q ≠ '(' ∧ ¬(q = '-' ∨ q.isDigit = true) := by decide
  obtain ⟨hstart, hparen, hnum⟩ := hquote q hq
  exact readOperand_of_head hcs hstart hparen hnum fuel

/-- What follows the parenthesis at the front of a group. -/
theorem readSymbol_of_closed {inner : Form} {cs R : List Char}
    (hcs : skip cs = (Form.closed inner).text ++ R) :
    readSymbol "(" cs = some (inner.text ++ ')' :: R) := by
  unfold readSymbol
  rw [hcs]
  show some (inner.text ++ [')'] ++ R) = _
  rw [List.append_assoc]
  rfl

theorem readOperand_of_closed {inner : Form} {cs R R' : List Char} {fuel : Nat}
    {t : Template.Term} (hcs : skip cs = (Form.closed inner).text ++ R)
    (h : readOperand (fuel + 1) cs = some (t, R')) :
    ∃ rest, readArithmetic fuel (inner.text ++ ')' :: R) = some (t, rest) ∧
      readSymbol ")" rest = some R' := by
  obtain ⟨hdouble, hint⟩ := readNumeral_of_not_numeral hcs (by decide)
  rw [readOperand_of_not_start hcs rfl] at h
  cases hgroup : readGroup fuel cs with
  | none =>
    rw [readFirst_of_none hgroup, readFirst_of_none hdouble, readFirst_of_none hint] at h
    cases h
  | some found =>
    rw [readFirst_of_some hgroup] at h
    cases h
    unfold readGroup at hgroup
    rw [readSymbol_of_closed hcs, Option.bind_some] at hgroup
    obtain ⟨⟨t', rest⟩, harith, hgroup⟩ := Option.bind_eq_some_iff.1 hgroup
    obtain ⟨rest', hclose, heq⟩ := Option.map_eq_some_iff.1 hgroup
    cases heq
    exact ⟨rest, harith, hclose⟩

/-- **Arithmetic reads the first leaf of a tree.**  A group in parentheses is read only where it is
a leaf itself. -/
theorem readArithmetic_text {fuel : Nat} : ∀ {f : Form} {cs R R' : List Char} {t : Template.Term},
    f.Kept = true → f.Printed → f.opensPlain = true → Tail termEnds R → skip cs = f.text ++ R →
    readArithmetic fuel cs = some (t, R') → TermOf f.first t ∧ R' = f.after ++ R := by
  induction fuel using Nat.strongRecOn with
  | ind fuel ih =>
    intro f cs R R' t hkept hprinted hopens hR hcs h
    rw [f.text_eq_first, List.append_assoc] at hcs
    have htail : Tail termEnds (f.after ++ R) := f.tail_after hopens hR
    have hatom : f.first.Atom := Form.atom_first hopens
    have hkept : f.first.Kept = true := Form.kept_first hkept
    have hprinted : f.first.Printed := Form.printed_first hprinted
    match fuel with
    | 0 => cases h
    | 1 => cases h
    | fuel + 2 =>
      obtain ⟨⟨t', rest⟩, hread, -⟩ := Option.map_eq_some_iff.1 h
      -- the first leaf decides which reader reads
      have hleaf : TermOf f.first t' ∧ rest = f.after ++ R := by
        generalize f.first = leaf at hcs hatom hkept hprinted
        cases hatom with
        | ref path =>
          have hbool : readBool path = none :=
            Option.isNone_iff_eq_none.1 (Bool.and_eq_true_iff.1 hkept).1
          rw [readOperand_of_path hprinted hbool hcs htail] at hread
          cases hread
          exact ⟨.ref path, rfl⟩
        | truth b =>
          rw [readOperand_of_truth hcs] at hread
          cases hread
          exact ⟨.truth b, rfl⟩
        | num text v =>
          rw [readOperand_of_num hprinted hcs htail] at hread
          cases hread
          exact ⟨.num text v, rfl⟩
        | str q text =>
          rw [readOperand_of_str hprinted.1 hcs] at hread
          cases hread
        | closed inner =>
          obtain ⟨hnot, hinner⟩ := Bool.and_eq_true_iff.1 hkept
          have hplain : inner.opensPlain = true := hprinted.1.resolve_left fun hneg => by
            rw [hneg] at hnot
            cases hnot
          obtain ⟨behind, harith, hclose⟩ := readOperand_of_closed hcs hread
          obtain ⟨hterm, rfl⟩ := ih fuel (by omega) hinner hprinted.2 hplain (.closing _)
            (Form.skip_text hprinted.2 _) harith
          -- the group is closed behind its first leaf, so there is nothing else in it
          rcases inner.after_cases hplain with ⟨hfirst, hafter⟩ | hafter
          · rw [hafter] at hclose
            rw [hfirst] at hterm
            cases hclose
            exact ⟨.closed hterm, rfl⟩
          · rw [(hafter.append _).nexts.readSymbol (by decide)] at hclose
            cases hclose
      obtain ⟨hterm, rfl⟩ := hleaf
      rw [readArithmetic_of_operand hread htail] at h
      cases h
      exact ⟨hterm, rfl⟩

end Runbook.Template.Action
