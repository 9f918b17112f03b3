/-!
# Blank characters

The whitespace sets used by the readers of this library, and trimming by them:

* `isBlank` — the characters with the Unicode property `White_Space`;
* `isAsciiBlank` — space, tab, line feed, form feed and carriage return, the set that decides
  whether a document starts with a brace;
* `isIdentifier` — identifiers, none of whose characters is blank;
* `trimStart`, `trimEnd`, `trim` — drop blank characters at the ends of a character list.
-/

namespace Runbook.Text

/-- A character with the Unicode property `White_Space`. -/
def isBlank (c : Char) : Bool :=
  let n := c.toNat
  (9 ≤ n && n ≤ 13) || n == 0x20 || n == 0x85 || n == 0xA0 || n == 0x1680
    || (0x2000 ≤ n && n ≤ 0x200A) || n == 0x2028 || n == 0x2029 || n == 0x202F || n == 0x205F
    || n == 0x3000

/-- Space, tab, line feed, form feed or carriage return. -/
def isAsciiBlank (c : Char) : Bool :=
  c == ' ' || c == '\t' || c == '\n' || c == '\x0c' || c == '\r'

/-- A character of an identifier: an ASCII letter, a digit or an underscore. -/
def isIdentChar (c : Char) : Bool :=
  c.isAlphanum || c == '_'

/-- A character that may start an identifier: an ASCII letter or an underscore. -/
def isIdentStart (c : Char) : Bool :=
  c.isAlpha || c == '_'

/-- An identifier: a letter or underscore followed by letters, digits and underscores. -/
def isIdentifier : List Char → Bool
  | [] => false
  | c :: cs => isIdentStart c && cs.all isIdentChar

/-- A character that no identifier holds. -/
theorem not_mem_of_all {c : Char} {cs : List Char} (h : cs.all isIdentChar = true)
    (hc : isIdentChar c = false) : c ∉ cs := by
  intro hmem
  rw [List.all_eq_true.1 h c hmem] at hc
  cases hc

/-- The visible ASCII characters are not blank. -/
theorem isBlank_of_visible {c : Char} (hlow : 33 ≤ c.toNat) (hhigh : c.toNat ≤ 126) :
    isBlank c = false := by
  unfold isBlank
  simp only [Bool.or_eq_false_iff, Bool.and_eq_false_iff, decide_eq_false_iff_not,
    beq_eq_false_iff_ne]
  omega

theorem toNat_of_isIdentChar {c : Char} (h : isIdentChar c = true) :
    48 ≤ c.toNat ∧ c.toNat ≤ 122 := by
  rcases Bool.or_eq_true_iff.1 h with h | h
  · unfold Char.isAlphanum Char.isAlpha Char.isUpper Char.isLower Char.isDigit at h
    simp only [Bool.or_eq_true, Bool.and_eq_true, decide_eq_true_eq, UInt32.le_iff_toNat_le,
      ge_iff_le] at h
    change ((65 ≤ c.toNat ∧ c.toNat ≤ 90) ∨ (97 ≤ c.toNat ∧ c.toNat ≤ 122)) ∨
      (48 ≤ c.toNat ∧ c.toNat ≤ 57) at h
    omega
  · rw [beq_iff_eq.1 h]
    decide

theorem isBlank_of_isIdentChar {c : Char} (h : isIdentChar c = true) : isBlank c = false := by
  have hrange := toNat_of_isIdentChar h
  exact isBlank_of_visible (by omega) (by omega)

/-- Drop the leading blank characters. -/
def trimStart (cs : List Char) : List Char :=
  cs.dropWhile isBlank

/-- Drop the trailing blank characters. -/
def trimEnd (cs : List Char) : List Char :=
  (cs.reverse.dropWhile isBlank).reverse

/-- Drop the blank characters at both ends. -/
def trim (cs : List Char) : List Char :=
  trimEnd (trimStart cs)

/-- `trim` on strings. -/
def trimString (s : String) : String :=
  String.ofList (trim s.toList)

/-- The characters of `cs` after the leading `start`, if `cs` starts with it. -/
def dropStart? : (start cs : List Char) → Option (List Char)
  | [], cs => some cs
  | _ :: _, [] => none
  | p :: ps, c :: cs => if p = c then dropStart? ps cs else none

theorem dropStart?_eq_some {start cs rest : List Char} (h : dropStart? start cs = some rest) :
    cs = start ++ rest := by
  induction start generalizing cs with
  | nil => simpa [dropStart?] using h
  | cons p ps ih =>
    cases cs with
    | nil => simp [dropStart?] at h
    | cons c cs =>
      by_cases hp : p = c
      · simp only [dropStart?, hp, ↓reduceIte] at h
        simp [hp, ih h]
      · simp [dropStart?, hp] at h

/-- The characters of `cs` before the trailing `tail`, if `cs` ends with it. -/
def dropTail? (tail cs : List Char) : Option (List Char) :=
  (dropStart? tail.reverse cs.reverse).map List.reverse

/-- Whether `part` occurs in the list. -/
def contains (part : List Char) : List Char → Bool
  | [] => part.isEmpty
  | c :: cs => part.isPrefixOf (c :: cs) || contains part cs

/-- Cut a list at every element with the property `p`; the result has one piece more than there
are cuts. -/
def splitBy (p : Char → Bool) : List Char → List (List Char)
  | [] => [[]]
  | c :: cs =>
    match splitBy p cs with
    | [] => [[c]]
    | piece :: pieces => if p c then [] :: piece :: pieces else (c :: piece) :: pieces

theorem splitBy_ne_nil (p : Char → Bool) (cs : List Char) : splitBy p cs ≠ [] := by
  intro h
  cases cs with
  | nil => cases h
  | cons c cs =>
    rw [splitBy] at h
    split at h
    · cases h
    · split at h <;> cases h

/-- What stands behind a cut is cut apart from what stands before it. -/
theorem splitBy_append_cons {p : Char → Bool} {cut : Char} (hcut : p cut = true)
    (cs rest : List Char) : splitBy p (cs ++ cut :: rest) = splitBy p cs ++ splitBy p rest := by
  induction cs with
  | nil =>
    rw [List.nil_append, splitBy, splitBy]
    cases hsplit : splitBy p rest with
    | nil => exact absurd hsplit (splitBy_ne_nil p rest)
    | cons piece pieces => exact if_pos hcut
  | cons c cs ih =>
    rw [List.cons_append, splitBy, ih, splitBy]
    cases hsplit : splitBy p cs with
    | nil => exact absurd hsplit (splitBy_ne_nil p cs)
    | cons piece pieces =>
      dsimp only [List.cons_append]
      split <;> rfl

/-- Put `sep` between the pieces. -/
def joinWith (sep : List Char) : List (List Char) → List Char
  | [] => []
  | [piece] => piece
  | piece :: pieces => piece ++ sep ++ joinWith sep pieces

/-- Replace every occurrence of `old`, from left to right without overlap; an empty `old` stands
before every character and at the end. -/
def replaceAll (old new : List Char) (cs : List Char) : List Char :=
  if old.isEmpty then
    new ++ cs.flatMap (fun c => c :: new)
  else
    go (cs.length + 1) cs
where
  go : Nat → List Char → List Char
    | 0, cs => cs
    | fuel + 1, cs =>
      match dropStart? old cs with
      | some rest => new ++ go fuel rest
      | none =>
        match cs with
        | [] => []
        | c :: rest => c :: go fuel rest

/-- Split at the occurrences of `sep`, which is not empty; `part` is the current piece in
reverse. -/
def splitFrom (sep : List Char) : (fuel : Nat) → (part : List Char) → List Char → List (List Char)
  | 0, part, cs => [part.reverse ++ cs]
  | fuel + 1, part, cs =>
    match dropStart? sep cs with
    | some rest => part.reverse :: splitFrom sep fuel [] rest
    | none =>
      match cs with
      | [] => [part.reverse]
      | c :: rest => splitFrom sep fuel (c :: part) rest

/-- The pieces between occurrences of a separator; an empty one stands between all characters and
at both ends. -/
def splitOn (sep cs : List Char) : List (List Char) :=
  if sep.isEmpty then [[]] ++ cs.map (fun c => [c]) ++ [[]]
  else splitFrom sep (cs.length + 1) [] cs

/-- `replaceAll` on strings. -/
def replaceString (s old new : String) : String :=
  String.ofList (replaceAll old.toList new.toList s.toList)

/-- The text before and after the first character with the property `p`, which is dropped. -/
def splitAtFirst? (p : Char → Bool) : List Char → Option (List Char × List Char)
  | [] => none
  | c :: cs => if p c then some ([], cs) else (splitAtFirst? p cs).map (fun r => (c :: r.1, r.2))

/-- Comma-free decimal digits of a natural number. -/
def natText (n : Nat) : String :=
  toString n

/-- Decimal digits with a leading minus sign for a negative integer. -/
def intText (i : Int) : String :=
  if i < 0 then "-" ++ natText i.natAbs else natText i.natAbs

/-- Decimal digits padded with zeros on the left to at least `width` places. -/
def padNat (width n : Nat) : String :=
  let digits := natText n
  String.ofList (List.replicate (width - digits.length) '0') ++ digits

end Runbook.Text
