import Mathlib.Data.List.Forall2
import Runbook.Proofs.Template.Lexeme
/-!
# String literals in a text

What the template language takes for strings in the text of an expression.  Its literals have no
escapes: one starts at a quote and ends at the next quote of the same kind.

* `HasLiterals` — the strings in a text, in order; `HasLiterals.unique` — a text has only these;
* `HasLiterals.append` — texts one behind the other have the strings of both;
* `readString_of_literal?`, `hasLiterals_of_literal?` — the literal of a text is read as that text;
* `literal?_eq_none_iff` — only a text that holds all three quotes has no literal.
-/

namespace Runbook.Template.Action

open Runbook.Text

/-! ### Reading one literal -/

section Reading

variable {cs rest s t : List Char} {c : Char}

/-- A string is read between two quotes of one kind, and it does not hold that quote. -/
theorem readString_eq_some (h : readString cs = some (s, rest)) :
    ∃ q ∈ quotes, q ∉ s ∧ cs = q :: (s ++ q :: rest) := by
  cases cs with
  | nil => cases h
  | cons c cs =>
    by_cases hc : c ∈ quotes
    · rw [readString_of_mem hc] at h
      obtain ⟨cut, hcut, rfl⟩ := eq_of_splitAtFirst? h
      obtain rfl := beq_iff_eq.1 hcut
      refine ⟨cut, hc, fun hmem => ?_, rfl⟩
      exact absurd (front_of_splitAtFirst? h cut hmem) (by simp)
    · rw [readString_eq_none hc] at h
      cases h

/-- A literal starts and ends with a quote that the text does not hold. -/
theorem literal?_eq_some (h : literal? s = some t) : ∃ q ∈ quotes, q ∉ s ∧ t = q :: (s ++ [q]) := by
  obtain ⟨q, hq, rfl⟩ := Option.map_eq_some_iff.1 h
  have hnot := List.find?_some hq
  exact ⟨q, List.mem_of_find?_eq_some hq, by simpa using hnot, rfl⟩

/-- **The literal of a text is read as that text**, whatever stands behind it. -/
theorem readString_of_literal? (h : literal? s = some t) (rest : List Char) :
    readString (t ++ rest) = some (s, rest) := by
  obtain ⟨q, hq, hs, rfl⟩ := literal?_eq_some h
  rw [List.cons_append, List.append_assoc]
  exact readString_quoted hq hs rest

/-- Only a text that holds all three quotes has no literal. -/
theorem literal?_eq_none_iff : literal? s = none ↔ ∀ q ∈ quotes, q ∈ s := by
  simp [literal?, List.find?_eq_none]

/-- So an identifier has a literal. -/
theorem exists_literal?_of_isIdentifier (h : isIdentifier s = true) : ∃ t, literal? s = some t := by
  rw [← Option.ne_none_iff_exists', Ne, literal?_eq_none_iff]
  intro hall
  exact not_mem_of_all (all_of_isIdentifier h) rfl (hall '"' (by decide))

end Reading

/-! ### Reading all literals -/

/-- The string literals in a text, in order: a string is read wherever a quote stands, and all that
is in no string is passed over. -/
inductive HasLiterals : List Char → List (List Char) → Prop where
  | done : HasLiterals [] []
  | skip {c : Char} {cs : List Char} {ss : List (List Char)} (hc : c ∉ quotes)
    (h : HasLiterals cs ss) : HasLiterals (c :: cs) ss
  | string {cs s rest : List Char} {ss : List (List Char)} (hs : readString cs = some (s, rest))
    (h : HasLiterals rest ss) : HasLiterals cs (s :: ss)

/-- Whether a text has no string, and no quote that is left open. -/
abbrev NoLiteral (cs : List Char) : Prop := HasLiterals cs []

section All

variable {cs cs' s t : List Char} {ss ss' : List (List Char)}

/-- A text has these literals and no others. -/
theorem HasLiterals.unique (h : HasLiterals cs ss) (h' : HasLiterals cs ss') : ss = ss' := by
  induction h generalizing ss' with
  | done =>
    cases h' with
    | done => rfl
    | string hs _ => cases hs
  | skip hc _ ih =>
    cases h' with
    | skip _ h' => exact ih h'
    | string hs _ =>
      rw [readString_eq_none hc] at hs
      cases hs
  | string hs _ ih =>
    cases h' with
    | done => cases hs
    | skip hc _ =>
      rw [readString_eq_none hc] at hs
      cases hs
    | string hs' h' =>
      rw [hs] at hs'
      cases hs'
      rw [ih h']

theorem HasLiterals.append (h : HasLiterals cs ss) (h' : HasLiterals cs' ss') :
    HasLiterals (cs ++ cs') (ss ++ ss') := by
  induction h with
  | done => exact h'
  | skip hc _ ih => exact .skip hc ih
  | string hs _ ih =>
    obtain ⟨q, hq, hnot, rfl⟩ := readString_eq_some hs
    rw [List.cons_append, List.append_assoc]
    exact .string (readString_quoted hq hnot _) ih

theorem noLiteral_of_forall (h : ∀ c ∈ cs, c ∉ quotes) : NoLiteral cs := by
  induction cs with
  | nil => exact .done
  | cons c cs ih =>
    exact .skip (h c List.mem_cons_self) (ih fun d hd => h d (List.mem_cons_of_mem _ hd))

theorem noLiteral_of_all (h : cs.all (fun c => !quotes.contains c) = true) :
    NoLiteral cs := by
  refine noLiteral_of_forall fun c hc hmem => ?_
  have hnot := List.all_eq_true.1 h c hc
  rw [List.contains_iff_mem.2 hmem] at hnot
  cases hnot

theorem hasLiterals_of_literal? (h : literal? s = some t) : HasLiterals t [s] := by
  refine .string ?_ .done
  have hread := readString_of_literal? h []
  rwa [List.append_nil] at hread

/-- A text around others, which has no strings of its own. -/
theorem HasLiterals.between {before after : List Char} (hbefore : NoLiteral before)
    (h : HasLiterals cs ss) (hafter : NoLiteral after) :
    HasLiterals (before ++ (cs ++ after)) ss := by
  have hall := hbefore.append (h.append hafter)
  rwa [List.nil_append, List.append_nil] at hall

theorem not_mem_quotes_of_isIdentChar {c : Char} (h : isIdentChar c = true) : c ∉ quotes := by
  intro hmem
  rcases mem_quotes_iff.1 hmem with rfl | rfl | rfl <;> cases h

theorem noLiteral_of_isIdentifier (h : isIdentifier cs = true) : NoLiteral cs :=
  noLiteral_of_forall fun c hc =>
    not_mem_quotes_of_isIdentChar (List.all_eq_true.1 (all_of_isIdentifier h) c hc)

/-- A path has no quotes. -/
theorem noLiteral_of_isPath (h : isPath cs = true) : NoLiteral cs := by
  obtain ⟨first, parts, rfl, hfirst, hparts⟩ := exists_parts_of_isPath h
  refine (noLiteral_of_isIdentifier hfirst).append (noLiteral_of_forall fun c hc => ?_)
  obtain ⟨part, hpart, hc⟩ := List.mem_flatMap.1 hc
  rcases List.mem_cons.1 hc with rfl | hc
  · decide
  · have hall : part.all isIdentChar = true := (Bool.and_eq_true_iff.1 (hparts part hpart)).2
    exact not_mem_quotes_of_isIdentChar (List.all_eq_true.1 hall c hc)

/-- Joined texts have the literals of all of them. -/
theorem hasLiterals_joinWith {sep : List Char} (hsep : NoLiteral sep) {texts : List (List Char)}
    {strings : List (List (List Char))} (h : List.Forall₂ HasLiterals texts strings) :
    HasLiterals (joinWith sep texts) strings.flatten := by
  induction h with
  | nil => exact .done
  | @cons text ss texts strings hfirst hrest ih =>
    cases hrest with
    | nil =>
      rw [List.flatten_cons, List.flatten_nil, List.append_nil]
      exact hfirst
    | cons _ _ =>
      show HasLiterals (text ++ sep ++ joinWith sep _) (ss ++ List.flatten _)
      have hall := (hfirst.append hsep).append ih
      rwa [List.append_nil] at hall

end All

end Runbook.Template.Action
