import Runbook.Text.CaseTable
import Runbook.Text.Blank
/-!
# Upper and lower case

* `upperChar`, `lowerChar` — the case of one character, which may take several characters;
* `upper`, `lower` — of a text;
* `capitalize` — the first character in upper case and all others in lower case.

The capital sigma at the end of a word has the final form in lower case.
-/

namespace Runbook.Text

/-- The shift of the range that holds `n`. -/
def shiftIn? (n : Nat) : List (Nat × Nat × Nat × Int) → Option Int
  | [] => none
  | (first, last, step, shift) :: rest =>
    if first ≤ n ∧ n ≤ last ∧ (n - first) % step = 0 then some shift else shiftIn? n rest

/-- The image of a character under a case table. -/
def mapCase (ranges : List (Nat × Nat × Nat × Int)) (specials : List (Nat × List Nat)) (c : Char) :
    List Char :=
  match specials.lookup c.toNat with
  | some codes => codes.map Char.ofNat
  | none =>
    match shiftIn? c.toNat ranges with
    | some shift => [Char.ofNat ((c.toNat : Int) + shift).toNat]
    | none => [c]

/-- The upper case of a character. -/
def upperChar (c : Char) : List Char :=
  if c.toNat < 128 then [c.toUpper] else mapCase upperRanges upperSpecials c

/-- The lower case of a character on its own. -/
def lowerChar (c : Char) : List Char :=
  if c.toNat < 128 then [c.toLower] else mapCase lowerRanges lowerSpecials c

/-- Whether a character has a case. -/
def isCased (c : Char) : Bool :=
  upperChar c != [c] || lowerChar c != [c]

/-- The upper case of a text. -/
def upper (cs : List Char) : List Char :=
  cs.flatMap upperChar

/-- The lower case of a text; `cased` tells whether a cased character precedes. -/
def lowerFrom (cased : Bool) : List Char → List Char
  | [] => []
  | c :: cs =>
    let follows : Bool :=
      match cs with
      | d :: _ => isCased d
      | [] => false
    let image := if c = 'Σ' ∧ cased = true ∧ follows = false then ['ς'] else lowerChar c
    image ++ lowerFrom (isCased c) cs

/-- The lower case of a text. -/
def lower (cs : List Char) : List Char :=
  lowerFrom false cs

/-- The first character in upper case and all others in lower case. -/
def capitalize : List Char → List Char
  | [] => []
  | c :: cs => upperChar c ++ lower cs

end Runbook.Text
