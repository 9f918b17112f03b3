import Runbook.Proofs.Template.Statements
/-!
# Shown references

The tag of a reference is read as a part that shows the reference, whatever stands behind the tag,
and the part shows the value that the reference leads to.

* `readOperand_of_path` … `readValueExpr_of_path` — one lemma for each level of an expression, from
  the term up to the whole value;
* `readDisplay_of_reference` — the tag is read, up to its end;
* `renderNode_of_lookup` — the part is rendered as the value that is found.

The other modules look at readers that have succeeded.  Here it is shown that they do, so each level
takes the fuel that the levels below it need.
-/

namespace Runbook.Template.Action

open Runbook.Text

section Reading

variable {cs path R : List Char}

/-- Behind arithmetic there is no filter. -/
theorem readFilter_of_tail (hR : Tail filteredEnds R) (fuel : Nat) : readFilter fuel R = none := by
  cases fuel with
  | zero => rfl
  | succ fuel =>
    rw [readFilter, (hR.nexts (by decide)).readSymbol (by decide)]
    rfl

/-- A reference is arithmetic without operators and filters. -/
theorem readFiltered_of_path (hpath : IsReference path) (hbool : readBool path = none)
    (hcs : skip cs = path ++ R) (hR : Tail filteredEnds R) (fuel : Nat) :
    readFiltered (fuel + 3) cs = some (.ofTerm (.ref path), R) := by
  have hterm : Tail termEnds R := hR.mono (List.subset_cons_self _ _)
  have harith : readArithmetic (fuel + 2) cs = some (.ref path, R) :=
    readArithmetic_of_operand (readOperand_of_path hpath hbool hcs hterm fuel) hterm
  rw [readFiltered, harith, Option.map_some]
  dsimp only
  rw [readMany_of_none (readFilter_of_tail hR _)]
  rfl

/-- A reference is no string and no concatenation. -/
theorem readStringExpr_of_path (hpath : IsReference path) (hcs : skip cs = path ++ R)
    (hR : Tail filteredEnds R) (fuel : Nat) : readStringExpr fuel cs = none := by
  obtain ⟨c, more, hhead, hc⟩ := hpath.head
  have hcs' : skip cs = c :: (more ++ R) := by rw [hcs, hhead]; rfl
  have hconcat : ∀ fuel, readConcat fuel cs = none := fun fuel =>
    readConcat_of_atom (.ref path) hpath (hR.mono (List.subset_cons_self _ _)) hcs
  have hstring : readString (skip cs) = none :=
    readString_of_head hcs' (not_mem_quotes_of_isIdentStart hc)
  cases fuel with
  | zero => rfl
  | succ fuel =>
    rw [readStringExpr, readFirst_of_none (hconcat fuel), readFirst_of_none (by rw [hstring]; rfl)]
    rfl

/-- A reference is the operand of a comparison. -/
theorem readSide_of_path (hpath : IsReference path) (hbool : readBool path = none)
    (hcs : skip cs = path ++ R) (hR : Tail filteredEnds R) (fuel : Nat) :
    readSide (fuel + 4) cs = some (.ofTerm (.ref path), R) := by
  have hmath : readBoth readMathOp (readFiltered (fuel + 3)) R = none :=
    (hR.mono (List.subset_cons_self _ _)).readMath fun _ => readFiltered_of_tagEnd _
  have hoperand : readCompareOperand (fuel + 4) cs = some (.ofTerm (.ref path), R) := by
    rw [readCompareOperand, readFiltered_of_path hpath hbool hcs hR fuel, Option.map_some]
    dsimp only
    rw [readMany_of_none hmath]
    rfl
  rw [readSide, readFirst_of_none (readStringExpr_of_path hpath hcs hR _),
    readFirst_of_some hoperand]

/-- A reference is a comparison without an operator. -/
theorem readComparison_of_path (hpath : IsReference path) (hbool : readBool path = none)
    (hcs : skip cs = path ++ R) (hR : Tail operandEnds R) (fuel : Nat) :
    readComparison (fuel + 5) cs = some (.ofTerm (.ref path), R) := by
  have hside := readSide_of_path hpath hbool hcs (hR.mono (by decide)) fuel
  have hop : readCompareOp R = none := (hR.nexts (by decide)).readCompareOp (by decide)
  unfold readSide at hside
  rw [readComparison, hside, Option.map_some]
  dsimp only
  rw [readBoth_of_none hop]

/-- A reference is an operand of a connective. -/
theorem readLogicOperand_of_path (hpath : IsReference path)
    (hkept : (Form.ref path).Kept = true) (hcs : skip cs = path ++ R)
    (hR : Tail operandEnds R) (fuel : Nat) :
    readLogicOperand (fuel + 6) cs = some (.ofTerm (.ref path), R) := by
  have hbool : readBool path = none :=
    Option.isNone_iff_eq_none.1 (Bool.and_eq_true_iff.1 hkept).1
  have hbare : Bare (.ref path) := .atom (.ref path) hkept hpath
  have hnot : readKeyword "not" cs = none :=
    readKeyword_not_of_atom (.ref path) hkept hpath (hR.mono (by decide)) hcs
  rw [readLogicOperand_succ (fun fuel => readMember_text hbare (hR.mono (by decide)) hcs) hnot,
    readComparison_of_path hpath hbool hcs hR fuel]
  rfl

/-- A reference is a row of one operand. -/
theorem readLogic_of_path (hpath : IsReference path) (hkept : (Form.ref path).Kept = true)
    (hcs : skip cs = path ++ R) (hR : Tail chainEnds R) (fuel : Nat) :
    readLogic (fuel + 7) cs = some (.ofTerm (.ref path), R) := by
  have hop : readLogicOp R = none :=
    (hR.nexts (by decide)).readLogicOp (by decide) (by decide)
  rw [readLogic, readLogicOperand_of_path hpath hkept hcs (hR.mono (by decide)) fuel,
    Option.map_some]
  dsimp only
  rw [readMany_of_none (readBoth_of_none hop _)]
  rfl

/-- A reference is a value. -/
theorem readValueExpr_of_path (hpath : IsReference path) (hkept : (Form.ref path).Kept = true)
    (hcs : skip cs = path ++ R) (hR : Tail chainEnds R) :
    readValueExpr cs = some (.ofTerm (.ref path), R) :=
  readFirst_of_some (readLogic_of_path hpath hkept hcs hR (16 * cs.length + 9)) _

end Reading

/-- **The tag of a reference shows the reference**, and nothing behind the tag is taken into it. -/
theorem readDisplay_of_reference {path : List Char} (hpath : IsReference path)
    (hkept : (Form.ref path).Kept = true) (left right : Bool) (rest : List Char) :
    readDisplay ((TagBody.expression path).text left right ++ rest)
      = some (.display { left, right } (.ofTerm (.ref path)), rest) := by
  have hskip : skip (' ' :: (path ++ ' ' :: (ending '}' right ++ rest)))
      = path ++ ' ' :: (ending '}' right ++ rest) := Form.skip_text (f := .ref path) hpath _
  rw [expression_append, readDisplay_opening,
    readValueExpr_of_path hpath hkept hskip (tail_ending (by decide) right rest), Option.bind_some]
  exact readClose_ending left right _ rest

/-- A reference comes to the value that is found for it. -/
theorem evalExpr_ref (c : Context) (fs : Frames) (path : List Char) :
    evalExpr c fs (.ofTerm (.ref path)) = fs.lookup? c.vars path := by
  show finish? (.ref path) false .nil (fs.lookup? c.vars path) none some = _
  cases fs.lookup? c.vars path with
  | none => rfl
  | some v => cases v <;> rfl

/-- A shown reference is the text of its value. -/
theorem renderNode_of_lookup {c : Context} {fs : Frames} {path : List Char} {v : Value}
    (h : fs.lookup? c.vars path = some v) (trim : Trim) :
    renderNode c (.display trim (.ofTerm (.ref path))) fs
      = some (v.shown.toList, fs, .next) := by
  rw [renderNode, evalExpr_ref, h]
  rfl

end Runbook.Template.Action
