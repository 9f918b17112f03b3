import Runbook.Text.Blank
/-!
# Single quotes in conditions

A condition may write a text between single quotes; the expression language itself keeps them for
characters.

* `requote` — what follows a given state of quotation, with every text between single quotes
  between double quotes instead;
* `doubleQuoted` — the same for a whole expression.

Texts between double quotes or backticks stay as they are, and a backslash inside any quotes
protects the character behind it.
-/

namespace Runbook.Condition

/-- The rest of an expression; `quote` is the quotation mark that is open. -/
def requote : (quote : Option Char) → List Char → List Char
  | _, [] => []
  | none, c :: cs =>
    if c = '\'' then '"' :: requote (some c) cs
    else if c = '"' ∨ c = '\x60' then c :: requote (some c) cs
    else c :: requote none cs
  | some _, ['\\'] => ['\\']
  | some q, '\\' :: c :: cs =>
    if q = '\'' ∧ c = '\'' then c :: requote (some q) cs
    else '\\' :: c :: requote (some q) cs
  | some q, c :: cs =>
    if c = q then (if q = '\'' then '"' else c) :: requote none cs
    else if q = '\'' ∧ c = '"' then '\\' :: c :: requote (some q) cs
    else c :: requote (some q) cs

/-- An expression whose texts are all between double quotes or backticks. -/
def doubleQuoted (cs : List Char) : List Char :=
  requote none cs

end Runbook.Condition
