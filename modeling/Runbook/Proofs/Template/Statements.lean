import Runbook.Proofs.Template.Tags
/-!
# Shown values, conditions and assignments

How the template language reads the tag of an action up to its end, and what it makes of the
expression that it has read.

* `means_of_tagEnd` — an expression that is read up to the end of its tag is the whole action, and
  means its tree;
* `ShownAs`, `AssignedAs`, `DecidedBy` — what rendering makes of a shown value, an assignment and a
  branch, by what the tree of the action comes to;
* `readDisplay_of_expression`, `readAssign_of_body`, `readBranch_of_body` — the tag of an action is
  read as one of these, and nothing behind the tag is taken into it.

A tag is read only as what it is: no word that starts a tag starts another one.
-/

namespace Runbook.Template.Action

open Runbook.Text

/-! ### Starts and ends of tags -/

/-- The characters in front of the inside of a tag. -/
def opening (kind : Char) (left : Bool) : List Char :=
  if left then ['{', kind, '-'] else ['{', kind]

/-- The characters behind the inside of a tag. -/
def ending (close : Char) (right : Bool) : List Char :=
  if right then ['-', close, '}'] else [close, '}']

theorem expression_append (left right : Bool) (inner rest : List Char) :
    (TagBody.expression inner).text left right ++ rest
      = opening '{' left ++ ' ' :: (inner ++ ' ' :: (ending '}' right ++ rest)) := by
  unfold TagBody.text delimited opening ending
  simp only [if_true, List.append_assoc, List.cons_append]

theorem statement_append (left right : Bool) (inner rest : List Char) :
    (TagBody.statement inner).text left right ++ rest
      = opening '%' left ++ ' ' :: (inner ++ ' ' :: (ending '%' right ++ rest)) := by
  have hkind : ('%' : Char) ≠ '{' := by decide
  unfold TagBody.text delimited opening ending
  simp only [if_neg hkind, List.append_assoc, List.cons_append]

/-- No expression goes on behind the inside of a tag. -/
theorem tail_ending {close : Char} (hclose : close ∈ tagEnds) (right : Bool) (rest : List Char) :
    Tail chainEnds (' ' :: (ending close right ++ rest)) := by
  cases right with
  | true => exact .trimming hclose _
  | false =>
    rcases List.mem_cons.1 hclose with rfl | hclose
    · exact .spaced (by decide) _
    · rw [List.mem_singleton.1 hclose]
      exact .statement rest

theorem readTagEnd_ending (right : Bool) (rest : List Char) :
    readTagEnd (' ' :: (ending '%' right ++ rest)) = some (right, rest) := by
  cases right <;> rfl

/-- What starts otherwise is no end of a tag. -/
theorem readTagEnd_of_nexts {allowed cs : List Char} (h : Nexts allowed cs)
    (hallowed : ∀ c ∈ allowed, c ≠ '-' ∧ c ≠ '%') : readTagEnd cs = none := by
  obtain ⟨c, rest, hskip, hc⟩ := h
  unfold readTagEnd
  rw [hskip]
  split
  · next heq => exact absurd (List.cons.inj heq).1 (hallowed c hc).1
  · next heq => exact absurd (List.cons.inj heq).1 (hallowed c hc).2
  · rfl

/-- An expression that is read up to the end of a statement is the whole action. -/
theorem means_of_tagEnd {f : Form} {fuel : Nat} {cs R' rest rest' : List Char} {e : Expr}
    {right found : Bool} (hkept : f.Kept = true) (hprinted : f.Printed)
    (hcs : skip cs = f.text ++ ' ' :: (ending '%' right ++ rest))
    (h : readLogic fuel cs = some (e, R')) (hend : readTagEnd R' = some (found, rest')) :
    rest' = rest ∧ ∀ c fs, Means c fs f e := by
  have hstop : ¬ Nexts operatorStarts R' := by
    intro hstop
    rw [readTagEnd_of_nexts hstop (by decide)] at hend
    cases hend
  obtain ⟨rfl, hmeans⟩ :=
    means_of_readLogic hkept hprinted (tail_ending (by decide) right rest) hcs h hstop
  rw [readTagEnd_ending] at hend
  cases hend
  exact ⟨rfl, hmeans⟩

/-- No action is a list. -/
theorem readListExpr_text {f : Form} {cs R : List Char} (hprinted : f.Printed)
    (hcs : skip cs = f.text ++ R) (fuel : Nat) : readListExpr fuel cs = none := by
  obtain ⟨c, more, htext, hc⟩ := f.exists_head hprinted
  have hbracket : readSymbol "[" cs = none := by
    unfold readSymbol
    rw [hcs, htext]
    exact dropStart?_of_ne (ne_of_opens hc (by decide)).symm _ _
  cases fuel with
  | zero => rfl
  | succ fuel =>
    rw [readListExpr, hbracket]
    rfl

/-- A value is read as a row. -/
theorem readLogic_of_readValueExpr {f : Form} {cs R R' : List Char} {e : Expr}
    (hprinted : f.Printed) (hcs : skip cs = f.text ++ R)
    (h : readValueExpr cs = some (e, R')) : readLogic (exprFuel cs) cs = some (e, R') := by
  unfold readValueExpr at h
  cases hlogic : readLogic (exprFuel cs) cs with
  | some found =>
    rw [readFirst_of_some hlogic] at h
    exact h
  | none =>
    rw [readFirst_of_none hlogic, readFirst_of_none (readListExpr_text hprinted hcs _)] at h
    cases h

/-! ### Shown values -/

/-- What is shown is what a tree comes to. -/
def ShownAs (f : Form) (node : Node) : Prop :=
  ∀ c fs out, renderNode c node fs = some out →
    ∃ v, f.outcome c fs = .value v ∧ out = (v.shown.toList, fs, .next)

/-- The end of a shown value behind its expression. -/
def readClose (left : Bool) (e : Expr) (cs : List Char) : Read Node :=
  match skip cs with
  | '-' :: '}' :: '}' :: rest => some (.display { left, right := true } e, rest)
  | '}' :: '}' :: rest => some (.display { left, right := false } e, rest)
  | _ => none

theorem readDisplay_opening (left : Bool) (cs : List Char) :
    readDisplay (opening '{' left ++ ' ' :: cs)
      = (readValueExpr (' ' :: cs)).bind fun (e, rest) => readClose left e rest := by
  generalize hvalue : readValueExpr (' ' :: cs) = value
  unfold readDisplay
  cases left with
  | false =>
    split
    · next heq => cases heq
    · next heq =>
      cases heq
      dsimp only
      rw [Option.bind_some]
      show (readValueExpr (' ' :: cs)).bind (fun (e, rest) => readClose false e rest) = _
      rw [hvalue]
    · next hno => exact absurd rfl (hno _)
  | true =>
    split
    · next heq =>
      cases heq
      dsimp only
      rw [Option.bind_some]
      show (readValueExpr (' ' :: cs)).bind (fun (e, rest) => readClose true e rest) = _
      rw [hvalue]
    · next hno heq =>
      cases heq
      exact absurd rfl (hno _)
    · next hno => exact absurd rfl (hno _)

/-- No value is shown without double braces. -/
theorem readDisplay_of_ne {kind : Char} (h : kind ≠ '{') (rest : List Char) :
    readDisplay ('{' :: kind :: rest) = none := by
  unfold readDisplay
  split
  · next heq =>
    cases heq
    exact absurd rfl h
  · next heq =>
    cases heq
    exact absurd rfl h
  · rfl

theorem readClose_ending (left right : Bool) (e : Expr) (rest : List Char) :
    readClose left e (' ' :: (ending '}' right ++ rest))
      = some (.display { left, right } e, rest) := by
  cases right <;> rfl

/-- Behind an operator a shown value does not end. -/
theorem readClose_of_operator {cs : List Char} (h : Nexts operatorStarts cs) (left : Bool)
    (e : Expr) : readClose left e cs = none := by
  obtain ⟨c, rest, hskip, hc⟩ := h
  have hall : ∀ c ∈ operatorStarts, c ≠ '-' ∧ c ≠ '}' := by decide
  unfold readClose
  rw [hskip]
  split
  · next heq => exact absurd (List.cons.inj heq).1 (hall c hc).1
  · next heq => exact absurd (List.cons.inj heq).1 (hall c hc).2
  · rfl

/-- A tag that shows a value is read to its end, and what is shown is what its action comes to. -/
theorem readDisplay_of_expression {f : Form} {left right : Bool} {rest rest' : List Char}
    {node : Node} (hkept : f.Kept = true) (hprinted : f.Printed)
    (hnegates : f.negatesCompared = false)
    (h : readDisplay ((TagBody.expression f.text).text left right ++ rest) = some (node, rest')) :
    rest' = rest ∧ ShownAs f node := by
  rw [expression_append, readDisplay_opening] at h
  obtain ⟨⟨e, behind⟩, hvalue, hclose⟩ := Option.bind_eq_some_iff.1 h
  have hskip : ∀ R, skip (' ' :: (f.text ++ R)) = f.text ++ R := fun R =>
    Form.skip_text hprinted R
  have hlogic := readLogic_of_readValueExpr hprinted (hskip _) hvalue
  dsimp only at hclose
  have hstop : ¬ Nexts operatorStarts behind := by
    intro hstop
    rw [readClose_of_operator hstop] at hclose
    cases hclose
  obtain ⟨rfl, hmeans⟩ :=
    means_of_readLogic hkept hprinted (tail_ending (by decide) right rest) (hskip _) hlogic hstop
  rw [readClose_ending] at hclose
  cases hclose
  refine ⟨rfl, fun c fs out hout => ?_⟩
  obtain ⟨v, hv, rfl⟩ := Option.map_eq_some_iff.1 hout
  exact ⟨v, (hmeans c fs).shows hnegates v hv, rfl⟩

/-! ### Words that start statements -/

theorem readTagStart_opening (left : Bool) (cs : List Char) :
    readTagStart (opening '%' left ++ ' ' :: cs) = some (left, ' ' :: cs) := by
  cases left <;> rfl

/-- A word that is not there starts no statement. -/
theorem readTagWord_of_none {word : String} {cs : List Char}
    (h : dropStart? word.toList (skip cs) = none) (left : Bool) :
    readTagWord word (opening '%' left ++ ' ' :: cs) = none := by
  have hsymbol : readSymbol word (' ' :: cs) = none := h
  unfold readTagWord
  rw [readTagStart_opening, Option.bind_some]
  dsimp only
  rw [hsymbol]
  rfl

/-- No statement starts with double braces. -/
theorem readTagWord_of_expression (word : String) (left right : Bool) (inner rest : List Char) :
    readTagWord word ((TagBody.expression inner).text left right ++ rest) = none := by
  cases left <;> rfl

/-- A word and a blank start a statement. -/
theorem readTagWord_of_some {word : String} {cs rest : List Char}
    (h : dropStart? word.toList (skip cs) = some (' ' :: rest)) (left : Bool) :
    readTagWord word (opening '%' left ++ ' ' :: cs) = some (left, skip rest) := by
  have hsymbol : readSymbol word (' ' :: cs) = some (' ' :: rest) := h
  unfold readTagWord
  rw [readTagStart_opening, Option.bind_some]
  dsimp only
  rw [hsymbol]
  rfl

section Statements

variable {s : Scope} {tokens : List Token} {body : TagBody} {left right found : Bool}
  {rest cs : List Char}

/-- A branch starts with the word of a condition only. -/
theorem readTagWord_branch {word : String} (hword : word ∈ ["if", "elif"])
    (hbody : s.BodyOf tokens body)
    (h : readTagWord word (body.text left right ++ rest) = some (found, cs)) :
    ∃ inner, s.actionText? tokens = some inner ∧
      cs = skip (inner ++ ' ' :: (ending '%' right ++ rest)) := by
  simp only [List.mem_cons, List.not_mem_nil, or_false] at hword
  cases hbody with
  | shown hinner =>
    rw [readTagWord_of_expression] at h
    cases h
  | bare hbare =>
    simp only [List.mem_cons, List.not_mem_nil, or_false] at hbare
    rw [statement_append, readTagWord_of_none] at h
    · cases h
    · rcases hword with rfl | rfl <;> rcases hbare with rfl | rfl | rfl <;> rfl
  | assigned hname hinner =>
    rw [statement_append, readTagWord_of_none] at h
    · cases h
    · rcases hword with rfl | rfl <;> rfl
  | source hnames hinner =>
    rw [statement_append, readTagWord_of_none] at h
    · cases h
    · rcases hword with rfl | rfl <;> rfl
  | @decides start hstart inner hinner =>
    simp only [List.mem_cons, List.not_mem_nil, or_false] at hstart
    refine ⟨inner, hinner, ?_⟩
    rw [statement_append, List.append_assoc] at h
    rcases hword with rfl | rfl <;> rcases hstart with rfl | rfl
    · rw [readTagWord_of_some rfl] at h
      cases h
      rfl
    · rw [readTagWord_of_none rfl] at h
      cases h
    · rw [readTagWord_of_none rfl] at h
      cases h
    · rw [readTagWord_of_some rfl] at h
      cases h
      rfl

/-- An assignment starts with its own word only. -/
theorem readTagWord_assign (hbody : s.BodyOf tokens body)
    (h : readTagWord "set" (body.text left right ++ rest) = some (found, cs)) :
    ∃ name inner, isIdentifier name = true ∧ s.actionText? tokens = some inner ∧
      cs = name ++ (' ' :: '=' :: ' ' :: (inner ++ ' ' :: (ending '%' right ++ rest))) := by
  cases hbody with
  | shown hinner =>
    rw [readTagWord_of_expression] at h
    cases h
  | bare hbare =>
    simp only [List.mem_cons, List.not_mem_nil, or_false] at hbare
    rw [statement_append, readTagWord_of_none] at h
    · cases h
    · rcases hbare with rfl | rfl | rfl <;> rfl
  | decides hstart hinner =>
    simp only [List.mem_cons, List.not_mem_nil, or_false] at hstart
    rw [statement_append, readTagWord_of_none] at h
    · cases h
    · rcases hstart with rfl | rfl <;> rfl
  | source hnames hinner =>
    rw [statement_append, readTagWord_of_none rfl] at h
    cases h
  | @assigned name hname inner hinner =>
    refine ⟨name, inner, hname, hinner, ?_⟩
    simp only [statement_append, List.append_assoc] at h
    rw [readTagWord_of_some rfl] at h
    cases h
    exact skip_identifier hname _

end Statements

/-! ### Conditions -/

/-- A branch is taken when its tree holds. -/
def DecidedBy (f : Form) (trim : Trim) (e : Expr) (body : List Node) : Prop :=
  ∀ c fs more otherwise out, renderBranches c (.cons trim e body more) otherwise fs = some out →
    (if (f.outcome c fs).truth then renderNodes c body fs
      else renderBranches c more otherwise fs) = some out

theorem decidedBy_of_means {f : Form} {e : Expr} (hmeans : ∀ c fs, Means c fs f e)
    (hliteral : f.filtersLiteral = false) (trim : Trim) (body : List Node) :
    DecidedBy f trim e body := by
  intro c fs more otherwise out hout
  obtain ⟨b, hb, hout⟩ := Option.bind_eq_some_iff.1 hout
  rw [← (hmeans c fs).decides hliteral b hb]
  exact hout

/-- The tag of a branch is read to its end, the parts of the branch stand behind it, and its action
decides. -/
theorem readBranch_of_body {s : Scope} {tokens : List Token} {body : TagBody}
    (hbody : s.BodyOf tokens body) {f : Form} (hkept : f.Kept = true) (hprinted : f.Printed)
    (hform : ∀ inner, s.actionText? tokens = some inner → inner = f.text)
    (hliteral : f.filtersLiteral = false) {word : String} (hword : word ∈ ["if", "elif"])
    {left right : Bool} {rest rest' : List Char} {fuel : Nat} {place : Place} {trim : Trim}
    {e : Expr} {parts : List Node}
    (h : readBranch (fuel + 1) place word (body.text left right ++ rest)
      = some ((trim, e, parts), rest')) :
    (parts, rest') = readNodes fuel place rest ∧ DecidedBy f trim e parts := by
  rw [readBranch] at h
  obtain ⟨⟨found, cs⟩, hstart, h⟩ := Option.bind_eq_some_iff.1 h
  obtain ⟨⟨e', behind⟩, hcondition, h⟩ := Option.bind_eq_some_iff.1 h
  obtain ⟨⟨trims, last⟩, hend, heq⟩ := Option.map_eq_some_iff.1 h
  obtain ⟨inner, hinner, rfl⟩ := readTagWord_branch hword hbody hstart
  obtain rfl := hform inner hinner
  have hskip := Form.skip_text hprinted (' ' :: (ending '%' right ++ rest))
  have hcs : skip (skip (f.text ++ ' ' :: (ending '%' right ++ rest)))
      = f.text ++ ' ' :: (ending '%' right ++ rest) := by
    rw [hskip, hskip]
  obtain ⟨rfl, hmeans⟩ := means_of_tagEnd hkept hprinted hcs hcondition hend
  cases heq
  exact ⟨rfl, decidedBy_of_means hmeans hliteral _ _⟩

/-! ### Assignments -/

/-- What is assigned is what a tree comes to. -/
def AssignedAs (f : Form) (name : List Char) (node : Node) : Prop :=
  ∀ c fs out, renderNode c node fs = some out →
    ∃ v, f.outcome c fs = .value v ∧ out = ([], fs.declare (String.ofList name) v, .next)

/-- The tag of an assignment is read to its end, and its action is assigned. -/
theorem readAssign_of_body {s : Scope} {tokens : List Token} {body : TagBody}
    (hbody : s.BodyOf tokens body) {f : Form} (hkept : f.Kept = true) (hprinted : f.Printed)
    (hform : ∀ inner, s.actionText? tokens = some inner → inner = f.text)
    (hnegates : f.negatesCompared = false) {left right : Bool} {rest rest' : List Char}
    {node : Node} (h : readAssign "set" false (body.text left right ++ rest) = some (node, rest')) :
    rest' = rest ∧ ∃ name, AssignedAs f name node := by
  obtain ⟨⟨found, cs⟩, hstart, h⟩ := Option.bind_eq_some_iff.1 h
  obtain ⟨⟨target, behind⟩, htarget, h⟩ := Option.bind_eq_some_iff.1 h
  obtain ⟨inside, hequals, h⟩ := Option.bind_eq_some_iff.1 h
  obtain ⟨⟨e, behindValue⟩, hvalue, h⟩ := Option.bind_eq_some_iff.1 h
  obtain ⟨⟨trims, last⟩, hend, heq⟩ := Option.map_eq_some_iff.1 h
  obtain ⟨name, inner, hname, hinner, rfl⟩ := readTagWord_assign hbody hstart
  obtain rfl := hform inner hinner
  have hread : readIdent
      (name ++ ' ' :: '=' :: ' ' :: (f.text ++ ' ' :: (ending '%' right ++ rest)))
      = some (String.ofList name, _) :=
    readIdent_of_identifier hname (skip_identifier hname _) ⟨rfl, rfl⟩
  rw [hread] at htarget
  cases htarget
  cases hequals
  have hcs : skip (' ' :: (f.text ++ ' ' :: (ending '%' right ++ rest)))
      = f.text ++ ' ' :: (ending '%' right ++ rest) := Form.skip_text hprinted _
  obtain ⟨rfl, hmeans⟩ := means_of_tagEnd hkept hprinted hcs
    (readLogic_of_readValueExpr hprinted hcs hvalue) hend
  cases heq
  refine ⟨rfl, name, fun c fs out hout => ?_⟩
  obtain ⟨v, hv, rfl⟩ := Option.map_eq_some_iff.1 hout
  exact ⟨v, (hmeans c fs).shows hnegates v hv, rfl⟩

end Runbook.Template.Action
