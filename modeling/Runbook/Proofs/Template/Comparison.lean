import Runbook.Proofs.Template.Arithmetic
/-!
# How comparisons read actions

The text of an operand of a connective, in front of what can stand behind it.

* `Form.names` — the names of the filters behind a leaf;
* `Operand` — the expression of a tree without operators;
* `Plain` — such an expression, or a comparison of two of them;
* `readFiltered_text`, `readStringExpr_text` — filters are read to the last one;
* `readComparison_text` — a comparison is read with both of its operands;
* `readMember_text` — no membership is read.

What is read is the whole text, or reading has stopped at an operator that it does not take.
-/

namespace Runbook.Template.Action

open Runbook.Text

/-! ### Filters -/

/-- The names of the filters behind a leaf. -/
def Form.names : Form → List (List Char)
  | filtered arg name => arg.names ++ [name]
  | _ => []

/-- The text of filters. -/
def filtersText (names : List (List Char)) : List Char :=
  names.flatMap fun name => bar ++ name

/-- Filters without arguments. -/
def plainFilters (names : List (List Char)) : List (String × Args) :=
  names.map fun name => (String.ofList name, .nil)

/-- The expression of a tree without operators: the term of its first leaf, and its filters. -/
inductive Operand (f : Form) : Expr → Prop where
  | mk {t : Template.Term} (h : TermOf f.first t) :
    Operand f (.mk t false (Filters.ofList (plainFilters f.names)))

theorem skip_identifier {name : List Char} (hname : isIdentifier name = true) (R : List Char) :
    skip (name ++ R) = name ++ R := by
  cases name with
  | nil => cases hname
  | cons c cs =>
    exact skip_cons (isSpace_of_opens (opens_of_isIdentStart (Bool.and_eq_true_iff.1 hname).1)) _

/-- A bar and a name are a filter without arguments. -/
theorem readFilter_of_bar {name R : List Char} (hname : isIdentifier name = true)
    (hR : Tail termEnds R) (fuel : Nat) :
    readFilter (fuel + 1) (bar ++ (name ++ R)) = some ((String.ofList name, .nil), R) := by
  have hskip : skip (' ' :: (name ++ R)) = name ++ R := skip_identifier hname R
  have hcall : readNamedCall fuel (' ' :: (name ++ R)) = none :=
    readNamedCall_of_path (.of_isPath (isPath_of_isIdentifier hname)) hskip hR fuel
  have hbar : readSymbol "|" (bar ++ (name ++ R)) = some (' ' :: (name ++ R)) := rfl
  rw [readFilter, hbar, Option.bind_some, hcall,
    readIdent_of_identifier hname hskip (hR.stops rfl rfl)]
  rfl

/-- Filters are read to the last one, or reading stops at a bar. -/
theorem readMany_filters {names : List (List Char)} {R R' : List Char}
    {found : List (String × Args)} (hnames : ∀ name ∈ names, isIdentifier name = true)
    (hR : Tail filteredEnds R) (fuel count : Nat)
    (h : readMany (readFilter fuel) count (filtersText names ++ R) = (found, R')) :
    (found = plainFilters names ∧ R' = R) ∨ Nexts ['|'] R' := by
  have hbar : ∀ name more, Nexts ['|'] (filtersText (name :: more) ++ R) := fun name more =>
    ⟨'|', _, rfl, List.mem_cons_self⟩
  induction names generalizing count found with
  | nil =>
    have hnone : readFilter fuel R = none := by
      cases fuel with
      | zero => rfl
      | succ fuel =>
        rw [readFilter, (hR.nexts (by decide)).readSymbol (by decide)]
        rfl
    have hread : readMany (readFilter fuel) count R = (found, R') := h
    rw [readMany_of_none hnone] at hread
    cases hread
    exact .inl ⟨rfl, rfl⟩
  | cons name names ih =>
    cases count with
    | zero =>
      cases h
      exact .inr (hbar name names)
    | succ count =>
      cases fuel with
      | zero =>
        cases h
        exact .inr (hbar name names)
      | succ fuel =>
        have htail : Tail termEnds (filtersText names ++ R) := by
          cases names with
          | nil => exact hR.mono (List.subset_cons_self _ _)
          | cons other names => exact .spaced List.mem_cons_self _
        have hread : readFilter (fuel + 1) (filtersText (name :: names) ++ R)
            = some ((String.ofList name, .nil), filtersText names ++ R) := by
          rw [filtersText, List.flatMap_cons, List.append_assoc, List.append_assoc]
          exact readFilter_of_bar (hnames name List.mem_cons_self) htail fuel
        rw [readMany_of_some hread] at h
        cases h
        rcases ih (fun n hn => hnames n (List.mem_cons_of_mem name hn)) count rfl
          with ⟨hmore, hrest⟩ | hstop
        · rw [hmore, hrest]
          exact .inl ⟨rfl, rfl⟩
        · exact .inr hstop

/-! ### Operands -/

/-- A tree without operators, which stands bare in a comparison or under a filter: a leaf or a group
behind its filters. -/
inductive Bare : Form → Prop where
  | atom {f : Form} (h : f.Atom) (hkept : f.Kept = true) (hprinted : f.Printed) : Bare f
  | filtered {arg : Form} {name : List Char} (h : Bare arg) (hname : isIdentifier name = true)
    (hsafe : name ≠ "safe".toList) (hdefault : name ≠ "default".toList) :
    Bare (.filtered arg name)

/-- The outcome of reading a tree without operators: its expression, or a stop at a bar. -/
def ReadsOperand (f : Form) (R : List Char) (e : Expr) (R' : List Char) : Prop :=
  (R' = R ∧ Operand f e) ∨ Nexts ['|'] R'

section Operands

variable {f : Form} {fuel : Nat} {cs R R' : List Char} {e : Expr}

namespace Bare

/-- Nothing weaker than a filter stands bare in such a tree. -/
theorem of_isTight {f : Form} (htight : f.isTight = true) (hkept : f.Kept = true)
    (hprinted : f.Printed) : Bare f := by
  induction f with
  | ref path => exact .atom (.ref path) hkept hprinted
  | truth b => exact .atom (.truth b) hkept hprinted
  | num text v => exact .atom (.num text v) hkept hprinted
  | str q text => exact .atom (.str q text) hkept hprinted
  | filtered arg name ih =>
    simp only [Form.Kept, Bool.and_eq_true, bne_iff_ne] at hkept
    exact .filtered (ih hkept.1.1.1 hkept.1.1.2 hprinted.1) hprinted.2 hkept.1.2 hkept.2
  | compared op lhs rhs _ _ => cases htight
  | negated arg _ => cases htight
  | joined op lhs rhs _ _ => cases htight
  | closed inner _ => exact .atom (.closed inner) hkept hprinted

theorem kept (hf : Bare f) : f.Kept = true := by
  induction hf with
  | atom h hkept hprinted => exact hkept
  | @filtered arg name h hname hsafe hdefault ih =>
    have htight : arg.isTight = true := by
      cases h with
      | atom h hkept hprinted => cases h <;> rfl
      | filtered h hname hsafe hdefault => rfl
    simp only [Form.Kept, htight, ih, bne_iff_ne.2 hsafe, bne_iff_ne.2 hdefault, Bool.and_self]

theorem printed (hf : Bare f) : f.Printed := by
  induction hf with
  | atom h hkept hprinted => exact hprinted
  | filtered h hname hsafe hdefault ih => exact ⟨ih, hname⟩

theorem opensPlain (hf : Bare f) : f.opensPlain = true := by
  induction hf with
  | atom h hkept hprinted => cases h <;> rfl
  | filtered h hname hsafe hdefault ih => exact ih

theorem first_of_atom (h : f.Atom) : f.first = f ∧ f.after = [] ∧ f.names = [] := by
  cases h <;> exact ⟨rfl, rfl, rfl⟩

theorem isIdentifier_of_mem_names (hf : Bare f) :
    ∀ name ∈ f.names, isIdentifier name = true := by
  induction hf with
  | atom h hkept hprinted =>
    rw [(first_of_atom h).2.2]
    exact fun name hmem => absurd hmem List.not_mem_nil
  | filtered h hname hsafe hdefault ih =>
    intro other hmem
    rcases List.mem_append.1 hmem with hmem | hmem
    · exact ih other hmem
    · rw [List.mem_singleton.1 hmem]
      exact hname

/-- Behind the first leaf there are the filters. -/
theorem after_eq (hf : Bare f) : f.after = filtersText f.names := by
  induction hf with
  | atom h hkept hprinted =>
    rw [(first_of_atom h).2.1, (first_of_atom h).2.2]
    rfl
  | filtered h hname hsafe hdefault ih =>
    rw [Form.after, ih, Form.names, filtersText, filtersText, List.flatMap_append,
      List.flatMap_singleton]

/-- The text of a tree without operators is its first leaf and its filters. -/
theorem skip_eq (hf : Bare f) (hcs : skip cs = f.text ++ R) :
    skip cs = f.first.text ++ (filtersText f.names ++ R) := by
  rw [hcs, f.text_eq_first, hf.after_eq, List.append_assoc]

/-- What stands behind the first leaf of a tree without operators. -/
theorem tail (hf : Bare f) (hR : Tail filteredEnds R) :
    Tail termEnds (filtersText f.names ++ R) := by
  rw [← hf.after_eq]
  exact f.tail_after hf.opensPlain (hR.mono (List.subset_cons_self _ _))

/-- A term and the filters behind it. -/
theorem readsOperand (hf : Bare f) {t : Template.Term} (ht : TermOf f.first t)
    (hR : Tail filteredEnds R) (fuel count : Nat) :
    ReadsOperand f R
      (.mk t false (Filters.ofList
        (readMany (readFilter fuel) count (filtersText f.names ++ R)).1))
      (readMany (readFilter fuel) count (filtersText f.names ++ R)).2 := by
  rcases readMany_filters hf.isIdentifier_of_mem_names hR fuel count rfl
    with ⟨hfound, hrest⟩ | hstop
  · rw [hfound]
    exact .inl ⟨hrest, .mk ht⟩
  · exact .inr hstop

end Bare

/-- Arithmetic with filters. -/
theorem readFiltered_text (hf : Bare f) (hR : Tail filteredEnds R) (hcs : skip cs = f.text ++ R)
    (h : readFiltered fuel cs = some (e, R')) : ReadsOperand f R e R' := by
  cases fuel with
  | zero => cases h
  | succ fuel =>
    obtain ⟨⟨t, rest⟩, harith, heq⟩ := Option.map_eq_some_iff.1 h
    obtain ⟨hterm, rfl⟩ := readArithmetic_text hf.kept hf.printed hf.opensPlain
      (hR.mono (List.subset_cons_self _ _)) hcs harith
    rw [hf.after_eq] at heq
    cases heq
    exact hf.readsOperand hterm hR fuel _

/-! ### Strings -/

/-- A part of a concatenation. -/
def readPart (fuel : Nat) : List Char → Read Template.Term :=
  readFirst [readCall fuel, readDoubleTerm, readIntTerm, readStringTerm, readRefTerm]

theorem readString_of_head {c : Char} {rest : List Char} (hcs : skip cs = c :: rest)
    (hc : c ∉ quotes) : readString (skip cs) = none := by
  have hq : ¬(c = '"' ∨ c = '\'' ∨ c = '\x60') := by
    rintro (rfl | rfl | rfl)
    · exact hc (by decide)
    · exact hc (by decide)
    · exact hc (by decide)
  rw [hcs]
  exact if_neg hq

theorem readPart_of_path {path : List Char} (hpath : IsReference path)
    (hcs : skip cs = path ++ R) (hR : Tail termEnds R) :
    readPart fuel cs = some (.ref path, R) := by
  obtain ⟨c, more, hhead, hc⟩ := hpath.head
  have hcs' : skip cs = c :: (more ++ R) := by rw [hcs, hhead]; rfl
  have hnot : ¬(c = '-' ∨ c.isDigit = true) := by
    intro hnum
    rw [isIdentStart_of_numeral hnum] at hc
    cases hc
  obtain ⟨hdouble, hint⟩ := readNumeral_of_not_numeral hcs' hnot
  have hstring : readStringTerm cs = none := by
    unfold readStringTerm
    rw [readString_of_head hcs' (not_mem_quotes_of_isIdentStart hc)]
    rfl
  rw [readPart, readFirst_of_none (readCall_of_path hpath hcs hR fuel), readFirst_of_none hdouble,
    readFirst_of_none hint, readFirst_of_none hstring,
    readFirst_of_some (readRefTerm_of_path hpath hcs hR)]

theorem readPart_of_num {text : List Char} {v : Number} (hnum : numeral? text = some v)
    (hcs : skip cs = text ++ R) (hR : Tail termEnds R) :
    readPart fuel cs = some (numberTerm v, R) := by
  obtain ⟨c, more, rfl, hc⟩ := numeral?_head hnum
  have hread := readNumeral_of_skip hnum hcs hR
  rw [readPart, readFirst_of_none (readCall_of_not_start hcs (isIdentStart_of_numeral hc) fuel)]
  cases hdouble : readDoubleTerm cs with
  | some found =>
    rw [readFirst_of_some hdouble] at hread ⊢
    exact hread
  | none =>
    rw [readFirst_of_none hdouble] at hread ⊢
    cases hint : readIntTerm cs with
    | some found =>
      rw [readFirst_of_some hint] at hread ⊢
      exact hread
    | none =>
      rw [readFirst_of_none hint] at hread
      cases hread

theorem readPart_of_str {q : Char} {text : List Char} (hq : q ∈ quotes)
    (htext : text.contains q = false) (hcs : skip cs = (Form.str q text).text ++ R) :
    readPart fuel cs = some (.str text, R) := by
  have hquote : ∀ q ∈ quotes, isIdentStart q = false ∧ ¬(q = '-' ∨ q.isDigit = true) := by decide
  obtain ⟨hstart, hnot⟩ := hquote q hq
  obtain ⟨hdouble, hint⟩ := readNumeral_of_not_numeral hcs hnot
  have hstring : readStringTerm cs = some (.str text, R) := by
    unfold readStringTerm
    rw [readString_of_skip hq htext hcs]
    rfl
  rw [readPart, readFirst_of_none (readCall_of_not_start hcs hstart fuel),
    readFirst_of_none hdouble, readFirst_of_none hint, readFirst_of_some hstring]

theorem readPart_of_closed {inner : Form} (hcs : skip cs = (Form.closed inner).text ++ R) :
    readPart fuel cs = none := by
  obtain ⟨hdouble, hint⟩ := readNumeral_of_not_numeral hcs (by decide)
  have hstring : readStringTerm cs = none := by
    unfold readStringTerm
    rw [hcs]
    rfl
  rw [readPart, readFirst_of_none (readCall_of_not_start hcs rfl fuel),
    readFirst_of_none hdouble, readFirst_of_none hint, readFirst_of_none hstring,
    readFirst_of_none (readRefTerm_of_not_start hcs rfl)]
  rfl

/-- A leaf is one part at most, and no tilde follows it. -/
theorem readConcat_of_atom (hatom : f.Atom) (hprinted : f.Printed)
    (hR : Tail termEnds R) (hcs : skip cs = f.text ++ R) : readConcat fuel cs = none := by
  cases fuel with
  | zero => rfl
  | succ fuel =>
    have hone : ∀ {t : Template.Term}, readPart fuel cs = some (t, R) →
        readConcat (fuel + 1) cs = none := by
      intro t ht
      have htilde : (readSymbol "~" R).bind (readPart fuel) = none := by
        rw [hR.readSymbol (by decide)]
        rfl
      unfold readPart at ht htilde
      rw [readConcat, ht, Option.bind_some]
      dsimp only
      rw [readMany_of_none htilde]
    cases hatom with
    | ref path => exact hone (readPart_of_path hprinted hcs hR)
    | truth b =>
      have hpath : isPath (Form.truth b).text = true := by cases b <;> decide
      exact hone (readPart_of_path (.of_isPath hpath) hcs hR)
    | num text v => exact hone (readPart_of_num hprinted hcs hR)
    | str q text => exact hone (readPart_of_str hprinted.1 hprinted.2 hcs)
    | closed inner =>
      show (readPart fuel cs).bind _ = none
      rw [readPart_of_closed hcs]
      rfl

/-- Only a string is read as one. -/
theorem readString_of_atom (hatom : f.Atom) (hprinted : f.Printed)
    (hcs : skip cs = f.text ++ R) {text rest : List Char}
    (h : readString (skip cs) = some (text, rest)) : TermOf f (.str text) ∧ rest = R := by
  cases hatom with
  | ref path =>
    obtain ⟨c, more, rfl, hc⟩ := IsReference.head hprinted
    rw [readString_of_head hcs (not_mem_quotes_of_isIdentStart hc)] at h
    cases h
  | truth b =>
    cases b with
    | false =>
      rw [readString_of_head hcs (by decide)] at h
      cases h
    | true =>
      rw [readString_of_head hcs (by decide)] at h
      cases h
  | num digits v =>
    obtain ⟨c, more, rfl, hc⟩ := numeral?_head hprinted
    have hquotes : ∀ q ∈ quotes, ¬(q = '-' ∨ q.isDigit = true) := by decide
    rw [readString_of_head hcs fun hmem => hquotes c hmem hc] at h
    cases h
  | str q text =>
    rw [readString_of_skip hprinted.1 hprinted.2 hcs] at h
    cases h
    exact ⟨.str q text, rfl⟩
  | closed inner =>
    rw [readString_of_head hcs (by decide)] at h
    cases h

/-- A string with filters. -/
theorem readStringExpr_text (hf : Bare f) (hR : Tail filteredEnds R)
    (hcs : skip cs = f.text ++ R) (h : readStringExpr fuel cs = some (e, R')) :
    ReadsOperand f R e R' := by
  have hatom : f.first.Atom := Form.atom_first hf.opensPlain
  have hprinted : f.first.Printed := Form.printed_first hf.printed
  have hfirst := hf.skip_eq hcs
  cases fuel with
  | zero => cases h
  | succ fuel =>
    obtain ⟨⟨t, rest⟩, hread, heq⟩ := Option.map_eq_some_iff.1 h
    rw [readFirst_of_none (readConcat_of_atom hatom hprinted (hf.tail hR) hfirst)] at hread
    cases hstring : readString (skip cs) with
    | none =>
      rw [readFirst_of_none (by rw [hstring]; rfl)] at hread
      cases hread
    | some found =>
      obtain ⟨text, behind⟩ := found
      obtain ⟨hterm, rfl⟩ := readString_of_atom hatom hprinted hfirst hstring
      rw [readFirst_of_some (by rw [hstring]; rfl)] at hread
      cases hread
      cases heq
      exact hf.readsOperand hterm hR fuel _

/-! ### Membership -/

/-- A tree without operators, read as a string or as arithmetic. -/
theorem readFirst_text (hf : Bare f) (hR : Tail filteredEnds R) (hcs : skip cs = f.text ++ R)
    {other : List Char → Read Expr}
    (hother : ∀ {e R'}, other cs = some (e, R') → ReadsOperand f R e R')
    (h : readFirst [readStringExpr fuel, other] cs = some (e, R')) : ReadsOperand f R e R' := by
  cases hstring : readStringExpr fuel cs with
  | some found =>
    rw [readFirst_of_some hstring] at h
    cases h
    exact readStringExpr_text hf hR hcs hstring
  | none =>
    rw [readFirst_of_none hstring] at h
    cases hread : other cs with
    | some found =>
      rw [readFirst_of_some hread] at h
      cases h
      exact hother hread
    | none =>
      rw [readFirst_of_none hread] at h
      cases h

theorem ReadsOperand.nexts (h : ReadsOperand f R e R') (hR : Tail filteredEnds R) :
    Nexts (closers ++ termEnds) R' := by
  rcases h with ⟨rfl, -⟩ | hstop
  · exact (hR.mono (List.subset_cons_self _ _)).nexts (by decide)
  · have hsub : ['|'] ⊆ closers ++ termEnds := by decide
    exact hstop.mono hsub

/-- No membership is read. -/
theorem readMember_text (hf : Bare f) (hR : Tail filteredEnds R)
    (hcs : skip cs = f.text ++ R) : readMember fuel cs = none := by
  cases fuel with
  | zero => rfl
  | succ fuel =>
    show (readFirst [readStringExpr fuel, readFiltered fuel] cs).bind _ = none
    cases hitem : readFirst [readStringExpr fuel, readFiltered fuel] cs with
    | none => rfl
    | some found =>
      obtain ⟨item, rest⟩ := found
      have hrest := (readFirst_text hf hR hcs (readFiltered_text hf hR hcs) hitem).nexts hR
      have hnot : readKeyword "not" rest = none := hrest.readKeyword (by decide)
      have hin : readSymbol "in" rest = none := hrest.readSymbol (by decide)
      rw [Option.bind_some]
      dsimp only
      rw [hnot]
      dsimp only
      rw [hin]
      rfl

/-! ### Comparisons -/

theorem readFiltered_of_tagEnd (fuel : Nat) {c : Char} (hc : c ∈ tagEnds) (rest : List Char) :
    readFiltered fuel (c :: rest) = none := by
  match fuel with
  | 0 => rfl
  | 1 => rfl
  | fuel + 2 =>
    rw [readFiltered, readArithmetic, readOperand_of_tagEnd fuel hc]
    rfl

/-- Between expressions there is no arithmetic either. -/
theorem readCompareOperand_text (hf : Bare f) (hR : Tail filteredEnds R)
    (hcs : skip cs = f.text ++ R) (h : readCompareOperand fuel cs = some (e, R')) :
    ReadsOperand f R e R' := by
  cases fuel with
  | zero => cases h
  | succ fuel =>
    obtain ⟨⟨first, rest⟩, hread, heq⟩ := Option.map_eq_some_iff.1 h
    have hfirst := readFiltered_text hf hR hcs hread
    have hmath : readBoth readMathOp (readFiltered fuel) rest = none := by
      rcases hfirst with ⟨rfl, -⟩ | hstop
      · exact (hR.mono (List.subset_cons_self _ _)).readMath fun _ => readFiltered_of_tagEnd fuel
      · exact readBoth_of_none (hstop.readMathOp (by decide)) _
    dsimp only at heq
    rw [readMany_of_none hmath] at heq
    cases heq
    exact hfirst

/-- An operand of a comparison. -/
def readSide (fuel : Nat) : List Char → Read Expr :=
  readFirst [readStringExpr fuel, readCompareOperand fuel]

theorem readSide_text (hf : Bare f) (hR : Tail filteredEnds R) (hcs : skip cs = f.text ++ R)
    (h : readSide fuel cs = some (e, R')) : ReadsOperand f R e R' :=
  readFirst_text hf hR hcs (readCompareOperand_text hf hR hcs) h

theorem readComparison_succ {e : Expr} (h : readComparison (fuel + 1) cs = some (e, R')) :
    ∃ lhs rest, readSide fuel cs = some (lhs, rest) ∧
      (e, R') = (match readBoth readCompareOp (readSide fuel) rest with
        | some ((op, rhs), rest) => (.ofTerm (.compare op lhs rhs), rest)
        | none => (lhs, rest)) := by
  obtain ⟨⟨lhs, rest⟩, hlhs, heq⟩ := Option.map_eq_some_iff.1 h
  exact ⟨lhs, rest, hlhs, heq.symm⟩

/-- A comparison is written between blanks. -/
theorem readCompareOp_operator (op : CompareOp) (rest : List Char) :
    readCompareOp (' ' :: (operator op ++ ' ' :: rest)) = some (op, ' ' :: rest) := by
  cases op <;> rfl

theorem readBoth_operator {α : Type} (op : CompareOp) (read : List Char → Read α)
    (rest : List Char) :
    readBoth readCompareOp read (' ' :: (operator op ++ ' ' :: rest))
      = (read (' ' :: rest)).map fun (rhs, rest) => ((op, rhs), rest) := by
  unfold readBoth
  rw [readCompareOp_operator]
  rfl

end Operands

/-- Operands of connectives that are no negations. -/
inductive Simple : Form → Prop where
  | bare {f : Form} (hf : Bare f) : Simple f
  | compared (op : CompareOp) {lhs rhs : Form} (hl : Bare lhs) (hr : Bare rhs) :
    Simple (.compared op lhs rhs)

/-- The expression of such an operand. -/
inductive Plain : Form → Expr → Prop where
  | bare {f : Form} {e : Expr} (hf : Bare f) (h : Operand f e) : Plain f e
  | compared (op : CompareOp) {l r : Form} {lhs rhs : Expr} (hbl : Bare l) (hbr : Bare r)
    (hl : Operand l lhs) (hr : Operand r rhs) :
    Plain (.compared op l r) (.ofTerm (.compare op lhs rhs))

/-- A stop at an operator that no connective is. -/
def Stops (cs : List Char) : Prop :=
  Nexts ['|', '=', '!', '<', '>'] cs

section Simple

variable {f : Form} {fuel : Nat} {cs R R' : List Char} {e : Expr}

theorem stops_of_bar (h : Nexts ['|'] cs) : Stops cs := by
  have hsub : ['|'] ⊆ ['|', '=', '!', '<', '>'] := by decide
  exact h.mono hsub

theorem stops_operator (op : CompareOp) (rest : List Char) :
    Stops (' ' :: (operator op ++ rest)) := by
  cases op <;> exact ⟨_, _, rfl, by decide⟩

theorem tail_operator (op : CompareOp) (rest : List Char) :
    Tail filteredEnds (' ' :: (operator op ++ rest)) := by
  cases op <;> exact .spaced (by decide) _

theorem skip_compared {op : CompareOp} {lhs rhs : Form}
    (hcs : skip cs = (Form.compared op lhs rhs).text ++ R) :
    skip cs = lhs.text ++ ' ' :: (operator op ++ ' ' :: (rhs.text ++ R)) := by
  rw [hcs, Form.text]
  simp only [List.append_assoc, List.cons_append]

/-- **A comparison is read with both of its operands**, and where there is none, an operand. -/
theorem readComparison_text (hf : Simple f) (hR : Tail operandEnds R)
    (hcs : skip cs = f.text ++ R) (h : readComparison fuel cs = some (e, R')) :
    (R' = R ∧ Plain f e) ∨ Stops R' := by
  have hsub : operandEnds ⊆ filteredEnds := by decide
  cases fuel with
  | zero => cases h
  | succ fuel =>
    obtain ⟨lhs, rest, hlhs, heq⟩ := readComparison_succ h
    cases hf with
    | bare hf =>
      have hside := readSide_text hf (hR.mono hsub) hcs hlhs
      have hop : readCompareOp rest = none := by
        rcases hside with ⟨rfl, -⟩ | hstop
        · exact (hR.nexts (by decide)).readCompareOp (by decide)
        · exact hstop.readCompareOp (by decide)
      rw [readBoth_of_none hop] at heq
      cases heq
      rcases hside with ⟨rfl, hoperand⟩ | hstop
      · exact .inl ⟨rfl, .bare hf hoperand⟩
      · exact .inr (stops_of_bar hstop)
    | @compared op l r hl hr =>
      rcases readSide_text hl (tail_operator op _) (skip_compared hcs) hlhs
        with ⟨rfl, hleft⟩ | hstop
      · -- the left operand is read, so the comparison stands in front
        rw [readBoth_operator] at heq
        cases hrhs : readSide fuel (' ' :: (r.text ++ R)) with
        | none =>
          rw [hrhs] at heq
          cases heq
          exact .inr (stops_operator op _)
        | some found =>
          obtain ⟨rhs, rest⟩ := found
          rw [hrhs] at heq
          cases heq
          have hskip : skip (' ' :: (r.text ++ R)) = r.text ++ R := Form.skip_text hr.printed R
          rcases readSide_text hr (hR.mono hsub) hskip hrhs with ⟨rfl, hright⟩ | hstop
          · exact .inl ⟨rfl, .compared op hl hr hleft hright⟩
          · exact .inr (stops_of_bar hstop)
      · rw [readBoth_of_none (hstop.readCompareOp (by decide))] at heq
        cases heq
        exact .inr (stops_of_bar hstop)

/-- No membership is read where a comparison stands. -/
theorem readMember_of_simple (hf : Simple f) (hR : Tail operandEnds R)
    (hcs : skip cs = f.text ++ R) : readMember fuel cs = none := by
  cases hf with
  | bare hf =>
    have hsub : operandEnds ⊆ filteredEnds := by decide
    exact readMember_text hf (hR.mono hsub) hcs
  | compared op hl hr => exact readMember_text hl (tail_operator op _) (skip_compared hcs)

end Simple

end Runbook.Template.Action
