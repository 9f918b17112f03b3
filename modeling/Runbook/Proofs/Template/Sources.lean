import Runbook.Proofs.Template.Statements
/-!
# Sources of loops

A loop goes through what the action of its tag comes to.

* `readSource_means` — the source of a loop is the whole action, if it is read to the end of
  the tag;
* `readFiltered_not` — what is read where a negation stands is no source, or a call that fails, or
  ends behind the word `not`;
* `LoopsOver`, `readLoop_of_body` — what a loop goes through is what its action comes to.

There are no operators in a source, and the word `not` is a name like any other there.
-/

namespace Runbook.Template.Action

open Runbook.Text

/-! ### Negations -/

theorem exists_of_readFirst {α : Type} {reads : List (List Char → Read α)} {cs : List Char}
    {found : α × List Char} (h : readFirst reads cs = some found) :
    ∃ read ∈ reads, read cs = some found := by
  induction reads with
  | nil => cases h
  | cons read reads ih =>
    cases hread : read cs with
    | some other =>
      rw [readFirst_of_some hread] at h
      cases h
      exact ⟨read, List.mem_cons_self, hread⟩
    | none =>
      rw [readFirst_of_none hread] at h
      obtain ⟨other, hmem, hother⟩ := ih h
      exact ⟨other, List.mem_cons_of_mem _ hmem, hother⟩

/-- Operands that are joined at all are joined at the top. -/
theorem climb_of_join {α ω : Type} {tight : ω → Bool} {join : ω → α → α → α} {p : α → Prop}
    (hjoin : ∀ op lhs rhs, p (join op lhs rhs)) (row : List (ω × α)) (low : Option (α × ω))
    (current : α) (h : row ≠ [] ∨ low ≠ none ∨ p current) :
    p (climb tight join low current row) := by
  fun_induction climb tight join low current row with
  | case1 current =>
    rcases h with h | h | h
    · exact absurd rfl h
    · exact absurd rfl h
    · exact h
  | case2 lhs op current => exact hjoin op lhs current
  | case3 low current op operand row htight ih => exact ih (.inr (.inr (hjoin _ _ _)))
  | case4 current op operand row htight ih => exact ih (.inr (.inl (Option.some_ne_none _)))
  | case5 current op operand row htight lhs prev ih =>
    exact ih (.inr (.inl (Option.some_ne_none _)))

theorem isSource_of_readTest {fuel : Nat} {negated : Bool} {cs rest : List Char}
    {t : Template.Term} (h : readTest fuel negated cs = some (t, rest)) : t.isSource = false := by
  cases fuel with
  | zero => cases h
  | succ fuel =>
    obtain ⟨⟨path, _⟩, -, h⟩ := Option.bind_eq_some_iff.1 h
    obtain ⟨_, -, h⟩ := Option.bind_eq_some_iff.1 h
    obtain ⟨_, -, h⟩ := Option.bind_eq_some_iff.1 h
    obtain ⟨⟨name, last⟩, -, heq⟩ := Option.map_eq_some_iff.1 h
    dsimp only at heq
    split at heq <;> cases heq <;> rfl

theorem isSource_of_readMacroCall {fuel : Nat} {cs rest : List Char} {t : Template.Term}
    (h : readMacroCall fuel cs = some (t, rest)) : t.isSource = false := by
  cases fuel with
  | zero => cases h
  | succ fuel =>
    obtain ⟨⟨space, _⟩, -, h⟩ := Option.bind_eq_some_iff.1 h
    obtain ⟨_, -, h⟩ := Option.bind_eq_some_iff.1 h
    obtain ⟨⟨⟨name, args⟩, _⟩, -, heq⟩ := Option.map_eq_some_iff.1 h
    cases heq
    rfl

section Negation

variable {cs rest R' : List Char} {c : Char} {fuel : Nat}

/-- The name that the word of a negation is read as. -/
def notName : List Char := "not".toList

/-- Where a negation stands, the name of the word is the only source but a call. -/
theorem readOperand_not (hcs : skip cs = notName ++ ' ' :: c :: rest) {t : Template.Term}
    (h : readOperand fuel cs = some (t, R')) (hsource : t.isSource = true) :
    (∃ args, t = .call (String.ofList notName) args) ∨ R' = ' ' :: c :: rest := by
  have hident : readIdent cs = some (String.ofList notName, ' ' :: c :: rest) :=
    readIdent_of_identifier (by decide) hcs ⟨rfl, rfl⟩
  have hpath : readPath cs = some (notName, ' ' :: c :: rest) :=
    readPath_of_skip (.of_isPath (by decide)) hcs (.spaced (List.mem_singleton_self c) rest)
  cases fuel with
  | zero => cases h
  | succ fuel =>
    rw [readOperand] at h
    obtain ⟨read, hmem, hread⟩ := exists_of_readFirst h
    simp only [List.mem_cons, List.not_mem_nil, or_false] at hmem
    rcases hmem with rfl | rfl | rfl | rfl | rfl | rfl | rfl | rfl | rfl
    · have hopen : readSymbol "(" cs = none := by
        unfold readSymbol
        rw [hcs]
        rfl
      dsimp only at hread
      rw [hopen] at hread
      cases hread
    · obtain ⟨⟨b, _⟩, -, heq⟩ := Option.map_eq_some_iff.1 hread
      cases heq
      cases hsource
    · rw [isSource_of_readTest hread] at hsource
      cases hsource
    · rw [isSource_of_readTest hread] at hsource
      cases hsource
    · rw [isSource_of_readMacroCall hread] at hsource
      cases hsource
    · -- a call of that name
      cases fuel with
      | zero => cases hread
      | succ fuel =>
        obtain ⟨⟨⟨name, args⟩, last⟩, hcall, heq⟩ := Option.map_eq_some_iff.1 hread
        cases heq
        cases fuel with
        | zero => cases hcall
        | succ fuel =>
          rw [readNamedCall, hident, Option.bind_some] at hcall
          obtain ⟨_, -, hcall⟩ := Option.bind_eq_some_iff.1 hcall
          obtain ⟨⟨found, _⟩, -, heq⟩ := Option.map_eq_some_iff.1 hcall
          cases heq
          exact .inl ⟨_, rfl⟩
    · obtain ⟨⟨path, last⟩, href, heq⟩ := Option.map_eq_some_iff.1 hread
      cases heq
      rw [hpath] at href
      cases href
      exact .inr rfl
    · obtain ⟨⟨d, _⟩, -, heq⟩ := Option.map_eq_some_iff.1 hread
      cases heq
      cases hsource
    · obtain ⟨⟨i, _⟩, -, heq⟩ := Option.bind_eq_some_iff.1 hread
      dsimp only at heq
      split at heq
      · cases heq
        cases hsource
      · cases heq

theorem readMany_eq_nil {α : Type} {read : List Char → Read α} {count : Nat}
    (h : readMany read count cs = ([], R')) : R' = cs := by
  cases count with
  | zero =>
    cases h
    rfl
  | succ count =>
    cases hread : read cs with
    | none =>
      rw [readMany_of_none hread] at h
      cases h
      rfl
    | some found =>
      rw [readMany_of_some hread] at h
      cases h

/-- Where a negation stands, a source is a call of the word, or ends behind it. -/
theorem readFiltered_not (hcs : skip cs = notName ++ ' ' :: c :: rest) (hspace : isSpace c = false)
    (hbar : c ≠ '|') {e : Expr} (h : readFiltered fuel cs = some (e, R'))
    (hsource : e.term.isSource = true) :
    (∃ args, e.term = .call (String.ofList notName) args) ∨ R' = ' ' :: c :: rest := by
  cases fuel with
  | zero => cases h
  | succ fuel =>
    obtain ⟨⟨t, behind⟩, harith, heq⟩ := Option.map_eq_some_iff.1 h
    dsimp only at heq
    cases hfilters : readMany (readFilter fuel) behind.length behind with
    | mk filters last =>
      rw [hfilters] at heq
      cases heq
      cases fuel with
      | zero => cases harith
      | succ fuel =>
        obtain ⟨⟨first, behindFirst⟩, hfirst, heq⟩ := Option.map_eq_some_iff.1 harith
        dsimp only at heq
        cases hmore : readMany (readBoth readMathOp (readOperand fuel)) behindFirst.length
            behindFirst with
        | mk more lastOperand =>
          rw [hmore] at heq
          cases heq
          cases more with
          | cons entry more =>
            -- arithmetic is no source
            have hmath : (climb MathOp.bindsTighter joinTerms none first (entry :: more)).isSource
                = false :=
              climb_of_join (p := fun t : Template.Term => t.isSource = false)
                (fun _ _ _ => rfl) _ _ _ (.inl (List.cons_ne_nil _ _))
            cases hmath.symm.trans hsource
          | nil =>
            rcases readOperand_not hcs hfirst hsource with hcall | rfl
            · exact .inl hcall
            · obtain rfl := readMany_eq_nil hmore
              have hnone : readFilter (fuel + 1) (' ' :: c :: rest) = none := by
                have hsymbol : readSymbol "|" (' ' :: c :: rest) = none := by
                  unfold readSymbol
                  rw [show skip (' ' :: c :: rest) = c :: rest from skip_cons hspace rest]
                  exact dropStart?_of_ne hbar.symm _ _
                rw [readFilter, hsymbol]
                rfl
              rw [readMany_of_none hnone] at hfilters
              cases hfilters
              exact .inr rfl

/-- No function has the name of the word. -/
theorem evalExpr_call_not (c : Context) (fs : Frames) (args : Args) (negated : Bool)
    (filters : Filters) :
    evalExpr c fs (.mk (.call (String.ofList notName) args) negated filters) = none := by
  have hcall : ∀ values, callBuiltin? (String.ofList notName) values = none := by
    intro values
    unfold callBuiltin?
    rw [if_neg (by decide), if_neg (by decide)]
  have hvalue : termValue c fs (.call (String.ofList notName) args) = none := by
    rw [termValue, funext hcall]
    cases evalArgs c fs args <;> rfl
  rw [evalExpr]
  show finish? _ negated filters (termValue c fs (.call (String.ofList notName) args)) _ _ = none
  rw [hvalue]
  rfl

end Negation

/-! ### Sources -/

/-- The text of a numeral with a sign goes on with a digit. -/
theorem numeral?_minus {more : List Char} {v : Number} (h : numeral? ('-' :: more) = some v) :
    ∃ d rest, more = d :: rest ∧ d.isDigit = true := by
  cases hdigits : readDigits more with
  | some found => exact readDigits_head hdigits
  | none =>
    have hsigned : readSigned ('-' :: more) = none := by
      show (readDigits more).map _ = none
      rw [hdigits]
      rfl
    unfold numeral? readDouble readInt at h
    rw [hsigned] at h
    cases h

/-- Only a numeral starts with a sign. -/
theorem Simple.digit_of_minus {f : Form} (hf : Simple f) {more : List Char}
    (h : f.text = '-' :: more) : ∃ d rest, more = d :: rest ∧ d.isDigit = true := by
  have hatom := Form.atom_first hf.opensPlain
  have hprinted : f.first.Printed := Form.printed_first hf.printed
  rw [f.text_eq_first] at h
  generalize f.after = after at h
  generalize f.first = first at h hatom hprinted
  cases hatom with
  | ref path =>
    obtain ⟨c, name, rfl, hc⟩ := IsReference.head hprinted
    obtain ⟨rfl, -⟩ := List.cons.inj h
    cases hc
  | truth b => cases b <;> cases h
  | num text v =>
    obtain ⟨c, digits, rfl, -⟩ := numeral?_head hprinted
    obtain ⟨rfl, rfl⟩ := List.cons.inj h
    obtain ⟨d, rest, rfl, hd⟩ := numeral?_minus hprinted
    exact ⟨d, rest ++ after, rfl, hd⟩
  | str q text =>
    obtain ⟨rfl, -⟩ := List.cons.inj h
    exact absurd hprinted.1 (by decide)
  | closed inner => cases h

/-- Behind the word of a negation no tag ends. -/
theorem readTagEnd_of_negated {arg : Form} (harg : Simple arg) (R : List Char) :
    readTagEnd (' ' :: (arg.text ++ R)) = none := by
  obtain ⟨c, more, htext, hc⟩ := arg.exists_head harg.printed
  have hskip : skip (' ' :: (arg.text ++ R)) = c :: (more ++ R) := by
    rw [htext]
    exact skip_cons (isSpace_of_opens hc) _
  unfold readTagEnd
  rw [hskip]
  split
  · next heq =>
    obtain ⟨rfl, hmore⟩ := List.cons.inj heq
    obtain ⟨d, rest, rfl, hd⟩ := harg.digit_of_minus htext
    obtain ⟨rfl, -⟩ := List.cons.inj hmore
    cases hd
  · next heq =>
    obtain ⟨rfl, -⟩ := List.cons.inj heq
    cases hc
  · rfl

/-- A source without a negation in front is one operand, or reading stops at an operator. -/
theorem readFiltered_simple {f : Form} {fuel : Nat} {cs R R' : List Char} {e : Expr}
    (hf : Simple f) (hR : Tail operandEnds R) (hcs : skip cs = f.text ++ R)
    (h : readFiltered fuel cs = some (e, R')) :
    (R' = R ∧ ∀ c fs, Shows c fs e (f.outcome c fs)) ∨ Nexts operatorStarts R' := by
  have hbar : ['|'] ⊆ operatorStarts := by decide
  cases hf with
  | bare hf =>
    have hsub : operandEnds ⊆ filteredEnds := by decide
    rcases readFiltered_text hf (hR.mono hsub) hcs h with ⟨rfl, hoperand⟩ | hstop
    · exact .inl ⟨rfl, fun c fs => hoperand.shows hf⟩
    · exact .inr (hstop.mono hbar)
  | compared op hl hr =>
    rcases readFiltered_text hl (tail_operator op _) (skip_compared hcs) h with ⟨rfl, -⟩ | hstop
    · exact .inr (Continues.operator op _).nexts
    · exact .inr (hstop.mono hbar)

/-- A tree of one operand is that operand. -/
theorem Form.head_eq_self {f : Form} (h : f.more = []) : f.head = f := by
  cases f with
  | joined op lhs rhs =>
    exact absurd h (List.append_ne_nil_of_right_ne_nil _ (List.cons_ne_nil _ _))
  | _ => rfl

/-- **A source shows what its action comes to.**  What is read is the whole action, unless it is a
call that fails. -/
theorem readSource_means {f : Form} {cs R' rest rest' : List Char} {e : Expr} {right found : Bool}
    (hkept : f.Kept = true) (hprinted : f.Printed)
    (hcs : skip cs = f.text ++ ' ' :: (ending '%' right ++ rest))
    (h : readSource cs = some (e, R')) (hend : readTagEnd R' = some (found, rest'))
    (hsource : e.term.isSource = true) {c : Context} {fs : Frames} {v : Value}
    (hv : evalExpr c fs e = some v) : rest' = rest ∧ f.outcome c fs = .value v := by
  have hread : readFiltered (exprFuel cs) cs = some (e, R') := by
    unfold readSource at h
    cases hfiltered : readFiltered (exprFuel cs) cs with
    | some pair =>
      rw [readFirst_of_some hfiltered] at h
      exact h
    | none =>
      rw [readFirst_of_none hfiltered, readFirst_of_none (readListExpr_text hprinted hcs _)] at h
      cases h
  have htail : Tail chainEnds (' ' :: (ending '%' right ++ rest)) :=
    tail_ending (by decide) right rest
  rw [f.text_eq_row, List.append_assoc] at hcs
  rcases (Form.part_head hkept hprinted).1.cases with hsimple | ⟨arg, harg, hsimple⟩
  · have hstops : ¬ Nexts operatorStarts R' := by
      intro hstop
      rw [readTagEnd_of_nexts hstop (by decide)] at hend
      cases hend
    obtain ⟨rfl, hshows⟩ :=
      (readFiltered_simple hsimple (tail_rowText htail) hcs hread).resolve_right hstops
    cases hmore : f.more with
    | nil =>
      rw [hmore] at hend
      rw [show rowText [] ++ _ = ' ' :: (ending '%' right ++ rest) from rfl,
        readTagEnd_ending] at hend
      cases hend
      rw [Form.head_eq_self hmore] at hshows
      exact ⟨rfl, hshows c fs v hv⟩
    | cons entry more =>
      obtain ⟨op, g⟩ := entry
      refine absurd ?_ hstops
      rw [hmore]
      exact nexts_rowText op g more _
  · -- the word of the negation is read as a name
    obtain ⟨first, more, htext, hfirst⟩ := arg.exists_head hsimple.printed
    rw [harg] at hcs
    generalize hbehind : rowText f.more ++ ' ' :: (ending '%' right ++ rest) = behind at hcs
    have hnot : skip cs = notName ++ ' ' :: first :: (more ++ behind) := by
      rw [hcs, Form.text, htext]
      rfl
    rcases readFiltered_not hnot (isSpace_of_opens hfirst) (ne_of_opens hfirst (by decide)) hread
      hsource with ⟨args, hcall⟩ | rfl
    · obtain ⟨t, negated, filters⟩ := e
      cases hcall
      rw [evalExpr_call_not] at hv
      cases hv
    · have hnone := readTagEnd_of_negated hsimple behind
      rw [htext] at hnone
      cases hend.symm.trans hnone

/-! ### Loops -/

/-- A loop names its items, or its keys and its items. -/
theorem loopNames?_cases {s : Scope} {tokens rest : List Token} {names : List (List Char)}
    (h : loopNames? s tokens = some (names, rest)) :
    (∃ v, names = [v]) ∨ ∃ k v, names = [k, v] := by
  unfold loopNames? at h
  split at h
  · obtain ⟨v, -, he⟩ := Option.map_eq_some_iff.1 h
    cases he
    exact .inl ⟨v, rfl⟩
  · obtain ⟨k, -, h⟩ := Option.bind_eq_some_iff.1 h
    obtain ⟨v, -, he⟩ := Option.map_eq_some_iff.1 h
    cases he
    exact .inr ⟨k, v, rfl⟩
  · cases h
    exact .inl ⟨_, rfl⟩

/-- The names of a loop are read up to the blank behind them, and the last one is that of its
items. -/
theorem readLoopNames_names {s : Scope} {tokens rest' : List Token} {names : List (List Char)}
    (h : loopNames? s tokens = some (names, rest')) (rest : List Char) :
    ∃ found, readLoopNames (joinWith [',', ' '] names ++ ' ' :: rest) = some (found, ' ' :: rest) ∧
      skip (joinWith [',', ' '] names ++ ' ' :: rest)
        = joinWith [',', ' '] names ++ ' ' :: rest ∧
      names.getLast?.map String.ofList = some found.2 := by
  have hall := Scope.isIdentifier_of_loopNames? h
  rcases loopNames?_cases h with ⟨v, rfl⟩ | ⟨k, v, rfl⟩
  · have hv := hall v List.mem_cons_self
    have hread : readIdent (v ++ ' ' :: rest) = some (String.ofList v, ' ' :: rest) :=
      readIdent_of_identifier hv (skip_identifier hv _) ⟨rfl, rfl⟩
    refine ⟨(none, String.ofList v), ?_, skip_identifier hv _, rfl⟩
    show readLoopNames (v ++ ' ' :: rest) = _
    rw [readLoopNames, hread]
    rfl
  · have hk := hall k List.mem_cons_self
    have hv := hall v (List.mem_cons_of_mem _ List.mem_cons_self)
    have htext : joinWith [',', ' '] [k, v] ++ ' ' :: rest
        = k ++ ',' :: ' ' :: (v ++ ' ' :: rest) := by
      simp only [joinWith, List.append_assoc, List.cons_append, List.nil_append]
    have hkey : readIdent (k ++ ',' :: ' ' :: (v ++ ' ' :: rest))
        = some (String.ofList k, ',' :: ' ' :: (v ++ ' ' :: rest)) :=
      readIdent_of_identifier hk (skip_identifier hk _) ⟨rfl, rfl⟩
    have hitem : readIdent (' ' :: (v ++ ' ' :: rest)) = some (String.ofList v, ' ' :: rest) :=
      readIdent_of_identifier hv (skip_identifier hv _) ⟨rfl, rfl⟩
    refine ⟨(some (String.ofList k), String.ofList v), ?_, ?_, rfl⟩
    · rw [htext, readLoopNames, hkey]
      show ((readIdent (' ' :: (v ++ ' ' :: rest))).map _).bind _ = _
      rw [hitem]
      rfl
    · rw [htext]
      exact skip_identifier hk _

section Loops

variable {s : Scope} {tokens : List Token} {body : TagBody} {left right found : Bool}
  {rest cs : List Char}

/-- A loop starts with its own word only. -/
theorem readTagWord_loop (hbody : s.BodyOf tokens body)
    (h : readTagWord "for" (body.text left right ++ rest) = some (found, cs)) :
    ∃ names source rest' inner, loopNames? s source = some (names, rest') ∧
      s.actionText? tokens = some inner ∧
      cs = joinWith [',', ' '] names
        ++ ' ' :: 'i' :: 'n' :: ' ' :: (inner ++ ' ' :: (ending '%' right ++ rest)) := by
  cases hbody with
  | shown hinner =>
    rw [readTagWord_of_expression] at h
    cases h
  | bare hbare =>
    simp only [List.mem_cons, List.not_mem_nil, or_false] at hbare
    rw [statement_append, readTagWord_of_none] at h
    · cases h
    · rcases hbare with rfl | rfl | rfl <;> rfl
  | decides hstart hinner =>
    simp only [List.mem_cons, List.not_mem_nil, or_false] at hstart
    rw [statement_append, readTagWord_of_none] at h
    · cases h
    · rcases hstart with rfl | rfl <;> rfl
  | assigned hname hinner =>
    simp only [statement_append, List.append_assoc] at h
    rw [readTagWord_of_none rfl] at h
    cases h
  | @source names tokens' rest' hnames inner hinner =>
    refine ⟨names, tokens', rest', inner, hnames, hinner, ?_⟩
    simp only [statement_append, List.append_assoc] at h
    rw [readTagWord_of_some rfl] at h
    cases h
    obtain ⟨-, -, hskip, -⟩ := readLoopNames_names hnames
      ('i' :: 'n' :: ' ' :: (inner ++ ' ' :: (ending '%' right ++ rest)))
    exact hskip

end Loops

/-- A loop goes through what a tree comes to, with the parts behind its tag. -/
def LoopsOver (f : Form) (parts : List Node) (node : Node) : Prop :=
  ∃ trim key item source body empty stop, node = .loop trim key item source body empty stop ∧
    ∀ c fs out, renderNode c node fs = some out →
      body = parts ∧ ∃ v, f.outcome c fs = .value v ∧ evalExpr c fs source = some v

/-- A loop that is rendered has a source with a value. -/
theorem source_of_renderNode {c : Context} {trim : Trim} {key : Option String} {item : String}
    {source : Expr} {body : List Node} {empty : Option (List Node)} {stop : Trim} {fs : Frames}
    {out : List Char × Frames × Flow}
    (h : renderNode c (.loop trim key item source body empty stop) fs = some out) :
    source.term.isSource = true ∧ ∃ v, evalExpr c fs source = some v := by
  cases empty with
  | none =>
    rw [renderNode] at h
    split at h
    · next hsource =>
      obtain ⟨entries, hentries, -⟩ := Option.bind_eq_some_iff.1 h
      obtain ⟨v, hv, -⟩ := Option.bind_eq_some_iff.1 hentries
      exact ⟨hsource, v, hv⟩
    · cases h
  | some empty =>
    rw [renderNode] at h
    split at h
    · next hsource =>
      obtain ⟨entries, hentries, -⟩ := Option.bind_eq_some_iff.1 h
      obtain ⟨v, hv, -⟩ := Option.bind_eq_some_iff.1 hentries
      exact ⟨hsource, v, hv⟩
    · cases h

/-- The tag of a loop is read to its end, and the loop goes through what its action comes to. -/
theorem readLoop_of_body {s : Scope} {tokens : List Token} {body : TagBody}
    (hbody : s.BodyOf tokens body) {f : Form} (hkept : f.Kept = true) (hprinted : f.Printed)
    (hform : ∀ inner, s.actionText? tokens = some inner → inner = f.text) {left right : Bool}
    {rest rest' : List Char} {fuel : Nat} {node : Node}
    (h : readLoop (fuel + 1) (body.text left right ++ rest) = some (node, rest')) :
    LoopsOver f (readNodes fuel .loopBody rest).1 node := by
  rw [readLoop] at h
  obtain ⟨⟨found, cs⟩, hstart, hafter⟩ := Option.bind_eq_some_iff.1 h
  obtain ⟨⟨⟨key, item⟩, behindNames⟩, hnames, hafter⟩ := Option.bind_eq_some_iff.1 hafter
  obtain ⟨inside, hin, hafter⟩ := Option.bind_eq_some_iff.1 hafter
  obtain ⟨⟨source, behind⟩, hsource, hafter⟩ := Option.bind_eq_some_iff.1 hafter
  obtain ⟨⟨trims, last⟩, hend, hafter⟩ := Option.bind_eq_some_iff.1 hafter
  dsimp only at hafter
  obtain ⟨⟨stop, behindLoop⟩, -, heq⟩ := Option.map_eq_some_iff.1 hafter
  obtain ⟨names, tokens', _, inner, hloop, hinner, rfl⟩ := readTagWord_loop hbody hstart
  obtain rfl := hform inner hinner
  obtain ⟨pair, hread, -⟩ := readLoopNames_names hloop
    ('i' :: 'n' :: ' ' :: (f.text ++ ' ' :: (ending '%' right ++ rest)))
  rw [hread] at hnames
  cases hnames
  have hkeyword : readKeyword "in"
      (' ' :: 'i' :: 'n' :: ' ' :: (f.text ++ ' ' :: (ending '%' right ++ rest)))
        = some (f.text ++ ' ' :: (ending '%' right ++ rest)) := rfl
  rw [hkeyword] at hin
  cases hin
  cases heq
  refine ⟨_, _, _, _, _, _, _, rfl, fun c fs out hout => ?_⟩
  obtain ⟨hterm, v, hv⟩ := source_of_renderNode hout
  obtain ⟨rfl, hf⟩ :=
    readSource_means hkept hprinted (Form.skip_text hprinted _) hsource hend hterm hv
  exact ⟨rfl, v, hf, hv⟩

end Runbook.Template.Action
