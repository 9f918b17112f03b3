import Runbook.Proofs.Condition.Boundaries
/-!
# Conditions as they are written

A condition without texts between single quotes needs no requoting: it says what its expression
comes to as it stands.

* `doubleQuoted_of_agreed` — requoting leaves it alone when its notion of a text is that of the
  language;
* `evaluate_as_written` — such a condition is evaluated as it is written;
* `comment_opens_text` — a quote in a comment can make a condition unreadable.
-/

namespace Runbook.Condition

/-- Nothing is requoted where both notions of a text agree and no single quote stands in code. -/
theorem doubleQuoted_of_agreed {cs : List Char} (hquotes : NoBareQuote cs) (hagreed : Agreed cs) :
    doubleQuoted cs = cs := by
  have hharmless : ∀ p ∈ places .code [] cs, p.Harmless := by
    intro p hp
    unfold Placed.Harmless
    split
    · next hdepth =>
      exact ⟨fun hplace => hquotes p hp hplace hdepth,
        fun hplace => hagreed.comments p hp hplace hdepth⟩
    · next hdepth => exact hagreed.holes p hp (Nat.pos_of_ne_zero hdepth)
  exact requote_eq_self_of_places (clean_code []) hharmless hagreed.backslashes

/-- **Conditions without texts between single quotes.**  Requoting leaves a condition alone exactly
if each of its single quotes stands inside a text by requoting's own notion, and then the condition
says what its expression comes to as it is written.  This is so when no single quote stands outside
of texts and comments and nothing in a comment or between backticks looks like the start or the end
of a text.

What the characters stand in is what the language takes them for: there is a place for each of them,
and where an expression is read, its words are read in code and not in texts or comments. -/
theorem evaluate_as_written (expression : String) :
    (doubleQuoted expression.toList = expression.toList
      ↔ QuotesInside none expression.toList) ∧
    (NoBareQuote expression.toList → Agreed expression.toList →
      doubleQuoted expression.toList = expression.toList) ∧
    (doubleQuoted expression.toList = expression.toList → ∀ helpers vars,
      evaluate helpers expression vars
        = answer expression (evalWritten helpers vars expression.toList)) ∧
    (placed expression.toList).map Placed.char = expression.toList ∧
    ∀ tokens, scan? expression.toList = some tokens →
      Words (InCode (placed expression.toList)) tokens := by
  refine ⟨requote_eq_self_iff none_ne_single _, doubleQuoted_of_agreed, fun hsame helpers vars => ?_,
    chars_places .code [] _, fun tokens => words_inCode⟩
  rw [evaluate_eq_answer, hsame]

/-- Single quotes in both kinds of texts and in an expression inside one of them, and comments. -/
def mixed : String :=
  "x == \"it's \\\"on\\\"\" /* or */ || y == `'C:\\$\x7b z + '\"' \x7d` // else"

/-- It stays as it is. -/
theorem evaluate_mixed_as_written :
    NoBareQuote mixed.toList ∧ Agreed mixed.toList ∧
    doubleQuoted mixed.toList = mixed.toList ∧
    ∀ helpers vars, evaluate helpers mixed vars
      = answer mixed (evalWritten helpers vars mixed.toList) := by
  obtain ⟨-, hkept, hwritten, -⟩ := evaluate_as_written mixed
  have hquotes : NoBareQuote mixed.toList := by
    unfold NoBareQuote
    decide +kernel
  have hagreed : Agreed mixed.toList :=
    ⟨by decide +kernel, by decide +kernel, by decide +kernel⟩
  exact ⟨hquotes, hagreed, hkept hquotes hagreed, hwritten (hkept hquotes hagreed)⟩

/-- A comparison behind a comment with an apostrophe. -/
def commented : String := "/* it's */ x == \"a\""

/-- **A quote in a comment opens a text** that goes on behind the comment, so that a condition
becomes unreadable that holds as it is written. -/
theorem comment_opens_text :
    NoBareQuote commented.toList ∧ doubleQuoted commented.toList ≠ commented.toList ∧
    evaluate [] commented [("x", .str "a")]
      = .error (.evaluation ("unable to evaluate " ++ Text.quoted commented ++ ": Syntax error")) ∧
    answer commented (evalWritten [] [("x", .str "a")] commented.toList) = .ok true := by
  have hwritten : scan? commented.toList = some [.word ['x'], .symbol "==", .str ['a']] := by
    decide +kernel
  have hrequoted : scan? (doubleQuoted commented.toList) = none := by decide +kernel
  refine ⟨?_, by decide +kernel, ?_, ?_⟩
  · unfold NoBareQuote
    decide +kernel
  · have hunreadable : Expr.ofChars? (doubleQuoted commented.toList) = none := by
      rw [Expr.ofChars?, hrequoted, Option.bind_none]
    rw [evaluate_eq_answer, evalWritten, hunreadable]
    rfl
  · rw [evalWritten_comparison ⟨rfl, rfl, by decide⟩ hwritten [] rfl]
    rfl

end Runbook.Condition
