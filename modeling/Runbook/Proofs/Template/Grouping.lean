import Runbook.Proofs.Template.Connective
/-!
# Texts with their grouping

The text of an action in the template language is read with the grouping of the action.

* `readLogicOperand_text` — an operand of a connective is read as one expression, which means the
  operand; a group in parentheses is read as a unit;
* `readLogic_text` — a row of operands is read to the last one;
* `means_of_readLogic` — what is read up to the end of a tag means the tree of the action.

What is read is the whole text, or reading has stopped at an operator; then the tag is not closed
where the text ends, and the template is not read.
-/

namespace Runbook.Template.Action

open Runbook.Text

/-! ### Operands -/

theorem isSpace_of_isIdentChar {c : Char} (h : isIdentChar c = true) : isSpace c = false := by
  have hne : ∀ d, isIdentChar d = false → c ≠ d := by
    rintro d hd rfl
    rw [hd] at h
    cases h
  unfold isSpace
  rw [beq_eq_false_iff_ne.2 (hne ' ' rfl), beq_eq_false_iff_ne.2 (hne '\t' rfl),
    beq_eq_false_iff_ne.2 (hne '\r' rfl), beq_eq_false_iff_ne.2 (hne '\n' rfl)]
  rfl

/-- Behind a word without brackets a reference does not go on with a blank. -/
theorem isSpace_behind_word {word more : List Char} {c : Char}
    (h : IsReference (word ++ c :: more)) (hword : '[' ∉ word) : isSpace c = false := by
  obtain ⟨path, keys, heq, hpath, -⟩ := h
  obtain ⟨first, parts, rfl, hfirst, hparts⟩ := exists_parts_of_isPath hpath
  have hin : ∀ d ∈ first ++ parts.flatMap (fun part => '.' :: part), isSpace d = false := by
    intro d hd
    rcases List.mem_append.1 hd with hd | hd
    · exact isSpace_of_isIdentChar (List.all_eq_true.1 (all_of_isIdentifier hfirst) d hd)
    · obtain ⟨part, hpart, hd⟩ := List.mem_flatMap.1 hd
      rcases List.mem_cons.1 hd with rfl | hd
      · rfl
      · have hall := (Bool.and_eq_true_iff.1 (hparts part hpart)).2
        exact isSpace_of_isIdentChar (List.all_eq_true.1 hall d hd)
  rcases List.append_eq_append_iff.1 heq with
    ⟨missing, hpathText, hbehind⟩ | ⟨extra, hwordText, hkeys⟩
  · -- the word ends in the path
    cases missing with
    | nil =>
      cases keys with
      | nil => cases hbehind
      | cons entry keys =>
        obtain ⟨rfl, -⟩ := List.cons.inj hbehind
        rfl
    | cons d missing =>
      obtain ⟨rfl, -⟩ := List.cons.inj hbehind
      exact hin c (hpathText ▸ List.mem_append_right _ List.mem_cons_self)
  · -- the path ends in the word, so no bracket opens behind it before the word ends
    cases keys with
    | nil =>
      cases extra <;> cases hkeys
    | cons entry keys =>
      cases extra with
      | nil =>
        obtain ⟨rfl, -⟩ := List.cons.inj hkeys
        rfl
      | cons d extra =>
        obtain ⟨rfl, -⟩ := List.cons.inj hkeys
        exact absurd (hwordText ▸ List.mem_append_right _ List.mem_cons_self) hword

/-- No negation stands in front of a leaf. -/
theorem readKeyword_not_of_atom {f : Form} {cs R : List Char} (hatom : f.Atom)
    (hkept : f.Kept = true) (hprinted : f.Printed) (hR : Tail termEnds R)
    (hcs : skip cs = f.text ++ R) : readKeyword "not" cs = none := by
  have hhead : ∀ {c rest}, skip cs = c :: rest → c ≠ 'n' → readKeyword "not" cs = none := by
    intro c rest hskip hc
    have hdrop : dropStart? "not".toList (c :: rest) = none :=
      dropStart?_of_ne hc.symm ['o', 't'] rest
    unfold readKeyword
    rw [hskip, hdrop]
  cases hatom with
  | ref path =>
    unfold readKeyword
    rw [hcs]
    cases hdrop : dropStart? "not".toList path with
    | none =>
      have hnone : dropStart? "not".toList ((Form.ref path).text ++ R) = none :=
        dropStart?_append hR (by decide) hdrop
      rw [hnone]
    | some more =>
      have hpath : path = "not".toList ++ more := dropStart?_eq_some hdrop
      cases more with
      | nil =>
        have hne := (Bool.and_eq_true_iff.1 hkept).2
        rw [hpath] at hne
        cases hne
      | cons c more =>
        have hreference : IsReference ("not".toList ++ c :: more) := hpath ▸ hprinted
        have hspace : isSpace c = false := isSpace_behind_word hreference (by decide)
        rw [hpath]
        show (if isSpace c then _ else none) = none
        rw [hspace]
        rfl
  | truth b =>
    cases b with
    | false => exact hhead hcs (by decide)
    | true => exact hhead hcs (by decide)
  | num text v =>
    obtain ⟨c, more, rfl, hc⟩ := numeral?_head hprinted
    refine hhead hcs ?_
    rintro rfl
    revert hc
    decide
  | str q text =>
    have hquotes : ∀ q ∈ quotes, q ≠ 'n' := by decide
    exact hhead hcs (hquotes q hprinted.1)
  | closed inner => exact hhead hcs (by decide)

/-- A leaf behind a parenthesis is a group. -/
theorem readSymbol_of_atom {f : Form} {cs R rest : List Char} (hatom : f.Atom)
    (hprinted : f.Printed) (hcs : skip cs = f.text ++ R) (h : readSymbol "(" cs = some rest) :
    ∃ inner, f = .closed inner ∧ rest = inner.text ++ ')' :: R := by
  have hhead : ∀ {c more}, skip cs = c :: more → c ≠ '(' → False := by
    intro c more hskip hc
    unfold readSymbol at h
    rw [hskip] at h
    have hnone : dropStart? "(".toList (c :: more) = none := dropStart?_of_ne hc.symm _ _
    rw [hnone] at h
    cases h
  cases hatom with
  | ref path =>
    obtain ⟨c, more, rfl, hc⟩ := IsReference.head hprinted
    refine (hhead hcs ?_).elim
    rintro rfl
    cases hc
  | truth b =>
    cases b with
    | false => exact (hhead hcs (by decide)).elim
    | true => exact (hhead hcs (by decide)).elim
  | num text v =>
    obtain ⟨c, more, rfl, hc⟩ := numeral?_head hprinted
    refine (hhead hcs ?_).elim
    rintro rfl
    revert hc
    decide
  | str q text =>
    have hquotes : ∀ q ∈ quotes, q ≠ '(' := by decide
    exact (hhead hcs (hquotes q hprinted.1)).elim
  | closed inner =>
    rw [readSymbol_of_closed hcs] at h
    cases h
    exact ⟨inner, rfl, rfl⟩

theorem simple_compared {op : CompareOp} {lhs rhs : Form}
    (hkept : (Form.compared op lhs rhs).Kept = true)
    (hprinted : (Form.compared op lhs rhs).Printed) : Simple (.compared op lhs rhs) := by
  simp only [Form.Kept, Bool.and_eq_true] at hkept
  exact .compared op (.of_isTight hkept.1.1 hkept.1.2 hprinted.1)
    (.of_isTight hkept.2.1 hkept.2.2 hprinted.2)

/-- An operand of a connective may be negated. -/
theorem Part.cases {f : Form} (hf : Part f) :
    Simple f ∨ ∃ arg, f = .negated arg ∧ Simple arg := by
  obtain ⟨hkept, hprinted, hsingle⟩ := hf
  cases f with
  | negated arg =>
    refine .inr ⟨arg, rfl, ?_⟩
    simp only [Form.Kept, Bool.and_eq_true, Bool.or_eq_true] at hkept
    obtain ⟨htight | hop, harg⟩ := hkept
    · exact .bare (.of_isTight htight harg hprinted)
    · cases arg with
      | compared op lhs rhs => exact simple_compared harg hprinted
      | _ => cases hop
  | compared op lhs rhs => exact .inl (simple_compared hkept hprinted)
  | joined op lhs rhs => cases hsingle
  | _ => exact .inl (.bare (.of_isTight rfl hkept hprinted))

namespace Simple

variable {f : Form}

theorem printed (hf : Simple f) : f.Printed := by
  cases hf with
  | bare hf => exact hf.printed
  | compared op hl hr => exact ⟨hl.printed, hr.printed⟩

theorem opensPlain (hf : Simple f) : f.opensPlain = true := by
  cases hf with
  | bare hf => exact hf.opensPlain
  | compared op hl hr => exact hl.opensPlain

/-- Behind the first leaf of an operand there is nothing, or an operator that no connective is. -/
theorem stops_after (hf : Simple f) (R : List Char) :
    (f.first = f ∧ f.after = []) ∨ Stops (f.after ++ R) := by
  have hnames : ∀ (names : List (List Char)) (more : List Char), names ≠ [] →
      Stops (filtersText names ++ more) := by
    intro names more hne
    cases names with
    | nil => exact absurd rfl hne
    | cons name names => exact ⟨'|', _, rfl, by decide⟩
  cases hf with
  | bare hf =>
    rcases Form.after_cases hf.opensPlain with hnil | hafter
    · exact .inl hnil
    · right
      rw [hf.after_eq]
      refine hnames f.names R fun hnil => ?_
      rw [hf.after_eq, hnil] at hafter
      obtain ⟨c, rest, heq, -⟩ := hafter
      cases heq
  | @compared op l r hl hr =>
    right
    rw [Form.after, hl.after_eq, List.append_assoc]
    by_cases hne : l.names = []
    · rw [hne]
      show Stops (' ' :: ((operator op ++ ' ' :: r.text) ++ R))
      rw [List.append_assoc]
      exact stops_operator op _
    · exact hnames l.names _ hne

end Simple

/-! ### Reading operands and rows -/

/-- A row is read as far as it goes and means its tree, or reading stops at an operator. -/
def ReadsLogic (c : Context) (fs : Frames) (fuel : Nat) : Prop :=
  ∀ {f : Form} {cs R R' : List Char} {e : Expr}, f.Kept = true → f.Printed → Tail chainEnds R →
    skip cs = f.text ++ R → readLogic fuel cs = some (e, R') →
    (R' = R ∧ Means c fs f e) ∨ Nexts operatorStarts R'

/-- An operand is read as far as it goes and means its tree, or reading stops. -/
def ReadsPart (c : Context) (fs : Frames) (fuel : Nat) : Prop :=
  ∀ {f : Form} {cs R R' : List Char} {e : Expr}, Part f → Tail operandEnds R →
    skip cs = f.text ++ R → readLogicOperand fuel cs = some (e, R') →
    (R' = R ∧ Means c fs f e) ∨ Stops R'

section Reading

variable {c : Context} {fs : Frames} {fuel : Nat} {f : Form} {cs R R' : List Char} {e : Expr}

/-- What a parenthesis opens is read as a unit. -/
theorem readGroup_means (hlogic : ReadsLogic c fs fuel) (hf : Simple f) (hkept : f.Kept = true)
    (hcs : skip cs = f.text ++ R)
    (h : ((readSymbol "(" cs).bind fun rest =>
      (readLogic fuel rest).bind fun (e, rest) =>
        (readSymbol ")" rest).map fun rest => (e.withNegated false, rest)) = some (e, R')) :
    (R' = R ∧ Means c fs f e) ∨ Stops R' := by
  have hopens := hf.opensPlain
  have hprinted : f.first.Printed := Form.printed_first hf.printed
  have hfirst : skip cs = f.first.text ++ (f.after ++ R) := by
    rw [hcs, f.text_eq_first, List.append_assoc]
  obtain ⟨rest, hopen, h⟩ := Option.bind_eq_some_iff.1 h
  obtain ⟨⟨inside, behind⟩, hread, h⟩ := Option.bind_eq_some_iff.1 h
  obtain ⟨last, hclose, heq⟩ := Option.map_eq_some_iff.1 h
  cases heq
  obtain ⟨inner, hinner, rfl⟩ :=
    readSymbol_of_atom (Form.atom_first hopens) hprinted hfirst hopen
  have hkept : (Form.closed inner).Kept = true := hinner ▸ Form.kept_first hkept
  rw [hinner] at hprinted
  obtain ⟨hnot, hkept⟩ := Bool.and_eq_true_iff.1 hkept
  rcases hlogic hkept hprinted.2 (.closing _) (Form.skip_text hprinted.2 _) hread
    with ⟨rfl, hmeans⟩ | hstop
  · have hlast : R' = f.after ++ R := (Option.some.inj hclose).symm
    rw [hlast]
    rcases hf.stops_after R with ⟨hsame, hnil⟩ | hafter
    · rw [hnil]
      refine .inl ⟨rfl, ?_⟩
      rw [← hsame, hinner]
      exact hmeans.closed (Bool.not_eq_true' _ ▸ hnot)
    · exact .inr hafter
  · rw [hstop.readSymbol (by decide)] at hclose
    cases hclose

theorem readLogicOperand_succ (hmember : ∀ fuel, readMember fuel cs = none)
    (hnot : readKeyword "not" cs = none) :
    readLogicOperand (fuel + 1) cs
      = match readComparison fuel cs with
        | some (e, rest) => some (e.withNegated false, rest)
        | none => (readSymbol "(" cs).bind fun rest =>
            (readLogic fuel rest).bind fun (e, rest) =>
              (readSymbol ")" rest).map fun rest => (e.withNegated false, rest) := by
  rw [readLogicOperand, hnot]
  dsimp only
  rw [readFirst_of_none (hmember fuel)]
  cases hcomparison : readComparison fuel cs with
  | none =>
    rw [readFirst_of_none hcomparison]
    rfl
  | some found => rw [readFirst_of_some hcomparison]

/-- **An operand of a connective is read as one expression.**  The mark of a negation replaces no
other one, because in parentheses there is no bare negation. -/
theorem readLogicOperand_text (hlogic : ReadsLogic c fs fuel) : ReadsPart c fs (fuel + 1) := by
  intro f cs R R' e hf hR hcs h
  rcases hf.cases with hsimple | ⟨arg, rfl, hsimple⟩
  · -- no negation in front
    have hopens := hsimple.opensPlain
    have hnot : readKeyword "not" cs = none := by
      refine readKeyword_not_of_atom (Form.atom_first hopens) (Form.kept_first hf.kept)
        (Form.printed_first hf.printed) (f.tail_after hopens (hR.mono (by decide))) ?_
      rw [hcs, f.text_eq_first, List.append_assoc]
    rw [readLogicOperand_succ (fun fuel => readMember_of_simple hsimple hR hcs) hnot] at h
    cases hcomparison : readComparison fuel cs with
    | some found =>
      obtain ⟨e', rest⟩ := found
      rw [hcomparison] at h
      cases h
      rcases readComparison_text hsimple hR hcs hcomparison with ⟨rfl, hplain⟩ | hstop
      · exact .inl ⟨rfl, .plain hplain⟩
      · exact .inr hstop
    | none =>
      rw [hcomparison] at h
      exact readGroup_means hlogic hsimple hf.kept hcs h
  · -- a negation, and what it negates
    have hnot : readKeyword "not" cs = some (arg.text ++ R) := by
      unfold readKeyword
      rw [hcs]
      rfl
    have hskip : skip (arg.text ++ R) = arg.text ++ R := Form.skip_text hsimple.printed R
    have hopen : readSymbol "(" cs = none := by
      unfold readSymbol
      rw [hcs]
      rfl
    rw [readLogicOperand, hnot] at h
    dsimp only at h
    rw [readFirst_of_none (readMember_of_simple hsimple hR hskip)] at h
    cases hcomparison : readComparison fuel (arg.text ++ R) with
    | some found =>
      obtain ⟨e', rest⟩ := found
      rw [readFirst_of_some hcomparison] at h
      cases h
      rcases readComparison_text hsimple hR hskip hcomparison with ⟨rfl, hplain⟩ | hstop
      · exact .inl ⟨rfl, .negated hplain⟩
      · exact .inr hstop
    | none =>
      rw [readFirst_of_none hcomparison, hopen] at h
      cases h

theorem tail_rowText {more : List (LogicOp × Form)} (hR : Tail chainEnds R) :
    Tail operandEnds (rowText more ++ R) := by
  cases more with
  | nil => exact hR.mono (by decide)
  | cons p more =>
    obtain ⟨op, g⟩ := p
    cases op <;> exact .spaced (by decide) _

theorem rowText_cons_append (op : LogicOp) (g : Form) (more : List (LogicOp × Form))
    (R : List Char) : rowText ((op, g) :: more) ++ R
      = ' ' :: (connective op ++ ' ' :: (g.text ++ (rowText more ++ R))) := by
  simp only [rowText, List.flatMap_cons, List.append_assoc, List.cons_append]

/-- Further operands start with a connective. -/
theorem nexts_rowText (op : LogicOp) (g : Form) (more : List (LogicOp × Form)) (R : List Char) :
    Nexts operatorStarts (rowText ((op, g) :: more) ++ R) := by
  rw [rowText_cons_append]
  exact (Continues.connective op _).nexts

theorem readLogicOp_connective (op : LogicOp) (rest : List Char) :
    readLogicOp (' ' :: (connective op ++ ' ' :: rest)) = some (op, rest) := by
  cases op <;> rfl

/-- The operands behind the first one are read in order, or reading stops at an operator. -/
theorem readMany_row (hpart : ReadsPart c fs fuel) {more : List (LogicOp × Form)}
    (hmore : ∀ p ∈ more, Part p.2) (hR : Tail chainEnds R) (count : Nat)
    {row : List (LogicOp × Expr)}
    (h : readMany (readBoth readLogicOp (readLogicOperand fuel)) count (rowText more ++ R)
      = (row, R')) :
    (R' = R ∧ Aligned (Means c fs) more row) ∨ Nexts operatorStarts R' := by
  induction more generalizing count row with
  | nil =>
    have hop : readLogicOp R = none :=
      (hR.nexts (by decide)).readLogicOp (by decide) (by decide)
    have hread : readMany (readBoth readLogicOp (readLogicOperand fuel)) count R = (row, R') := h
    rw [readMany_of_none (readBoth_of_none hop _)] at hread
    cases hread
    exact .inl ⟨rfl, .nil⟩
  | cons p more ih =>
    obtain ⟨op, g⟩ := p
    have hg : Part g := hmore (op, g) List.mem_cons_self
    have hskip : skip (g.text ++ (rowText more ++ R)) = g.text ++ (rowText more ++ R) :=
      Form.skip_text hg.printed _
    have hstop := nexts_rowText op g more R
    have hboth : readBoth readLogicOp (readLogicOperand fuel) (rowText ((op, g) :: more) ++ R)
        = (readLogicOperand fuel (g.text ++ (rowText more ++ R))).map
            fun (e, rest) => ((op, e), rest) := by
      unfold readBoth
      rw [rowText_cons_append, readLogicOp_connective]
      rfl
    cases count with
    | zero =>
      cases h
      exact .inr hstop
    | succ count =>
      cases hread : readLogicOperand fuel (g.text ++ (rowText more ++ R)) with
      | none =>
        rw [hread] at hboth
        rw [readMany_of_none hboth] at h
        cases h
        exact .inr hstop
      | some found =>
        obtain ⟨e, rest⟩ := found
        rw [hread] at hboth
        rw [readMany_of_some hboth] at h
        cases h
        rcases hpart hg (tail_rowText hR) hskip hread with ⟨rfl, hmeans⟩ | hstop
        · rcases ih (fun p hp => hmore p (List.mem_cons_of_mem _ hp)) count rfl
            with ⟨hrest, haligned⟩ | hstop
          · exact .inl ⟨hrest, .cons op hmeans haligned⟩
          · exact .inr hstop
        · -- an operand that stops ends the row
          have hop : readLogicOp rest = none := hstop.readLogicOp (by decide) (by decide)
          rw [readMany_of_none (readBoth_of_none hop _)]
          exact .inr (hstop.mono (by decide))

/-- **A row is read to its last operand.** -/
theorem readLogic_text (hpart : ReadsPart c fs fuel) : ReadsLogic c fs (fuel + 1) := by
  intro f cs R R' e hkept hprinted hR hcs h
  obtain ⟨hhead, hmore⟩ := Form.part_head hkept hprinted
  rw [f.text_eq_row, List.append_assoc] at hcs
  obtain ⟨⟨first, rest⟩, hfirst, heq⟩ := Option.map_eq_some_iff.1 h
  dsimp only at heq
  rcases hpart hhead (tail_rowText hR) hcs hfirst with ⟨rfl, hmeans⟩ | hstop
  · cases hrow : readMany (readBoth readLogicOp (readLogicOperand fuel))
      (rowText f.more ++ R).length (rowText f.more ++ R) with
    | mk row last =>
      rw [hrow] at heq
      cases heq
      rcases readMany_row hpart hmore hR _ hrow with ⟨rfl, haligned⟩ | hstop
      · refine .inl ⟨rfl, ?_⟩
        cases hjoined : f.isJoined with
        | true => exact .joined hjoined hkept hmeans haligned
        | false =>
          have hsingle : f.head = f ∧ f.more = [] := by
            cases f with
            | joined op lhs rhs => cases hjoined
            | _ => exact ⟨rfl, rfl⟩
          rw [hsingle.2] at haligned
          rw [hsingle.1] at hmeans
          cases haligned
          exact hmeans
      · exact .inr hstop
  · have hop : readLogicOp rest = none := hstop.readLogicOp (by decide) (by decide)
    rw [readMany_of_none (readBoth_of_none hop _)] at heq
    cases heq
    exact .inr (hstop.mono (by decide))

/-- Rows and operands are read with any fuel. -/
theorem reads_text (c : Context) (fs : Frames) (fuel : Nat) :
    ReadsLogic c fs fuel ∧ ReadsPart c fs fuel := by
  induction fuel with
  | zero =>
    refine ⟨?_, ?_⟩
    · intro f cs R R' e _ _ _ _ h
      cases h
    · intro f cs R R' e _ _ _ h
      cases h
  | succ fuel ih => exact ⟨readLogic_text ih.2, readLogicOperand_text ih.1⟩

end Reading

/-- What is read up to a place where no operator stands is the whole text, and means its tree. -/
theorem means_of_readLogic {f : Form} {fuel : Nat} {cs R R' : List Char} {e : Expr}
    (hkept : f.Kept = true) (hprinted : f.Printed) (hR : Tail chainEnds R)
    (hcs : skip cs = f.text ++ R) (h : readLogic fuel cs = some (e, R'))
    (hstop : ¬ Nexts operatorStarts R') : R' = R ∧ ∀ c fs, Means c fs f e := by
  have hmeans : ∀ c fs, R' = R ∧ Means c fs f e := fun c fs =>
    ((reads_text c fs fuel).1 hkept hprinted hR hcs h).resolve_right hstop
  exact ⟨(hmeans ⟨[], fun _ => none, fun _ _ => none⟩ []).1, fun c fs => (hmeans c fs).2⟩

end Runbook.Template.Action
