import Mathlib.Data.List.Basic
import Runbook.Proofs.Text.Encoding
import Runbook.Proofs.Value.Order
import Runbook.Value.Reader
import Runbook.Value.Text
/-!
# Values that are written and read back

The compact form of a value is read back as this value, as long as its numbers are integers.  This
is shown lexeme by lexeme, for any text behind the one that is read.

* `Value.readNumber?_toDigits` — the digits of a number, behind a sign or not;
* `Value.escapedChar_cases`, `Value.readString?_escaped` — characters and texts between quotes;
* `Value.Integral` — the values in question, with a bound on their nesting;
* `Value.ReadsBack` — a value is read back from its text, whatever stands behind it;
* `Value.Integral.readsBack` — every value in question is, by induction on it;
* `Value.ofChars?_text` — a text that holds such a value and nothing else.

The reader counts steps and levels: it needs two steps for a character at most, and one level for a
list or record around another.
-/

namespace Runbook.Value

open Runbook.Decimal

/-! ### Numerals -/

/-- A text that does not go on with any part of a numeral. -/
def EndsNumeral (rest : List Char) : Prop :=
  ∀ c ∈ rest.head?, c.isDigit = false ∧ c ≠ '.' ∧ c ≠ 'e' ∧ c ≠ 'E'

theorem digitRun_append {digits rest : List Char} (hdigits : ∀ c ∈ digits, c.isDigit = true)
    (hrest : EndsNumeral rest) : digitRun (digits ++ rest) = (digits, rest) := by
  have hnone : rest.takeWhile Char.isDigit = [] ∧ rest.dropWhile Char.isDigit = rest := by
    cases rest with
    | nil => exact ⟨rfl, rfl⟩
    | cons c rest =>
      have hc : ¬c.isDigit = true := by
        rw [(hrest c rfl).1]
        exact Bool.false_ne_true
      exact ⟨List.takeWhile_cons_of_neg hc, List.dropWhile_cons_of_neg hc⟩
  rw [digitRun, List.takeWhile_append_of_pos hdigits, List.dropWhile_append_of_pos hdigits,
    hnone.1, hnone.2, List.append_nil]

theorem le_ofDigitChars (digits : List Char) (n : Nat) : n ≤ Nat.ofDigitChars 10 digits n := by
  induction digits generalizing n with
  | nil => exact Nat.le_refl n
  | cons c digits ih =>
    rw [Nat.ofDigitChars_cons]
    refine Nat.le_trans ?_ (ih _)
    omega

/-- Digits whose value is a word are all taken. -/
theorem takeWord_eq {digits : List Char} {word : Nat}
    (h : Nat.ofDigitChars 10 digits word ≤ maxWord) :
    takeWord word digits = (Nat.ofDigitChars 10 digits word, []) := by
  induction digits generalizing word with
  | nil => rfl
  | cons c digits ih =>
    rw [Nat.ofDigitChars_cons] at h ⊢
    rw [takeWord, if_pos (Nat.le_trans (le_ofDigitChars digits _) h)]
    exact ih h

/-- What the reader of numerals sees of the digits of a number. -/
theorem readNumber?_toDigits {n : Nat} (hword : n ≤ maxWord) {rest : List Char}
    (hrest : EndsNumeral rest) (negative : Bool) :
    readNumber? negative (Nat.toDigits 10 n ++ rest)
      = if !negative then some (.int n, rest)
        else if n = 0 then some (.double (Double.withSign true 0), rest)
        else if n ≤ Nat.pow 2 63 then some (.int (-(n : Int)), rest)
        else some (.double (Double.ofInt n).neg, rest) := by
  have hvalue : Nat.ofDigitChars 10 (Nat.toDigits 10 n) 0 = n :=
    Nat.ofDigitChars_toDigits (by decide) (by decide)
  have htake : takeWord 0 (Nat.toDigits 10 n) = (n, []) := by
    rw [takeWord_eq (by rw [hvalue]; exact hword), hvalue]
  unfold readNumber?
  rw [digitRun_append (fun c => Nat.isDigit_of_mem_toDigits (by decide) (by decide)) hrest]
  dsimp only
  rw [htake, if_neg]
  · split
    · next more => exact absurd rfl (hrest '.' rfl).2.1
    · have hexponent : startsExponent rest = false := by
        cases rest with
        | nil => rfl
        | cons c rest =>
          obtain ⟨-, -, hsmall, hlarge⟩ := hrest c rfl
          rw [startsExponent, beq_eq_false_iff_ne.2 hsmall, beq_eq_false_iff_ne.2 hlarge]
          rfl
      rw [hexponent]
      rfl
  · rw [Bool.or_eq_true, not_or]
    refine ⟨?_, ?_⟩
    · rw [List.isEmpty_iff]
      exact Nat.toDigits_ne_nil
    · split
      · next second more hdigits =>
        -- a numeral of two digits or more that starts with a zero
        intro _
        have hzero : n = 0 := by
          refine Classical.byContradiction fun hne => Text.head?_toDigits_ne hne ?_
          rw [hdigits]
          rfl
        rw [hzero] at hdigits
        cases hdigits
      · exact Bool.false_ne_true

/-! ### Strings -/

/-- The two digits of a control character. -/
theorem natOfDigits?_control :
    ∀ n < 32, natOfDigits? 16 ['0', '0', hexDigit (n / 16), hexDigit (n % 16)] = some n := by
  decide +kernel

/-- A control character is read back from its digits. -/
theorem readEscape?_control {n : Nat} (h : n < 32) (rest : List Char) :
    readEscape? ('u' :: '0' :: '0' :: hexDigit (n / 16) :: hexDigit (n % 16) :: rest)
      = some (Char.ofNat n, rest) := by
  rw [readEscape?, readHex4?, natOfDigits?_control n h, Option.map_some, Option.bind_some]
  dsimp only
  rw [if_neg (by omega), if_neg (by omega)]

/-- A character stands for itself between quotes, or it is written as an escape that is read as this
character. -/
theorem escapedChar_cases (c : Char) :
    (∃ code, escapedChar c = '\\' :: code ∧
      ∀ rest, readEscape? (code ++ rest) = some (c, rest)) ∨
    escapedChar c = [c] ∧ c ≠ '"' ∧ c ≠ '\\' ∧ 32 ≤ c.toNat := by
  by_cases hquote : c = '"'
  · subst hquote
    exact .inl ⟨['"'], rfl, fun _ => rfl⟩
  by_cases hbackslash : c = '\\'
  · subst hbackslash
    exact .inl ⟨['\\'], rfl, fun _ => rfl⟩
  by_cases hnewline : c = '\n'
  · subst hnewline
    exact .inl ⟨['n'], rfl, fun _ => rfl⟩
  by_cases hreturn : c = '\r'
  · subst hreturn
    exact .inl ⟨['r'], rfl, fun _ => rfl⟩
  by_cases htab : c = '\t'
  · subst htab
    exact .inl ⟨['t'], rfl, fun _ => rfl⟩
  by_cases hbackspace : c = '\x08'
  · subst hbackspace
    exact .inl ⟨['b'], rfl, fun _ => rfl⟩
  by_cases hfeed : c = '\x0c'
  · subst hfeed
    exact .inl ⟨['f'], rfl, fun _ => rfl⟩
  have hcode : escapedChar c = if c.toNat < 32 then
      ['\\', 'u', '0', '0', hexDigit (c.toNat / 16), hexDigit (c.toNat % 16)] else [c] := by
    rw [escapedChar, if_neg hquote, if_neg hbackslash, if_neg hnewline, if_neg hreturn, if_neg htab,
      if_neg hbackspace, if_neg hfeed]
  by_cases hcontrol : c.toNat < 32
  · rw [if_pos hcontrol] at hcode
    refine .inl ⟨_, hcode, fun rest => ?_⟩
    have hread := readEscape?_control hcontrol rest
    rwa [Char.ofNat_toNat] at hread
  · rw [if_neg hcontrol] at hcode
    exact .inr ⟨hcode, hquote, hbackslash, Nat.le_of_not_lt hcontrol⟩

/-- A character is read back from its place between quotes. -/
theorem readChars_escapedChar (fuel : Nat) (done : List Char) (c : Char) (rest : List Char) :
    readChars (fuel + 1) done (escapedChar c ++ rest) = readChars fuel (c :: done) rest := by
  rcases escapedChar_cases c with ⟨code, hcode, hread⟩ | ⟨hself, hquote, hbackslash, hprinted⟩
  · rw [hcode, List.cons_append, readChars, if_neg (by decide), if_pos rfl, hread]
    rfl
  · rw [hself, List.singleton_append, readChars, if_neg hquote, if_neg hbackslash,
      if_neg (Nat.not_lt.2 hprinted)]

/-- Every character takes one step at least. -/
theorem readChars_flatMap {cs : List Char} {fuel : Nat} (h : cs.length < fuel)
    (done rest : List Char) :
    readChars fuel done (cs.flatMap escapedChar ++ '"' :: rest)
      = some (done.reverse ++ cs, rest) := by
  induction cs generalizing fuel done with
  | nil =>
    obtain ⟨fuel, rfl⟩ := Nat.exists_eq_add_of_lt h
    rw [List.append_nil]
    exact if_pos rfl
  | cons c cs ih =>
    cases fuel with
    | zero => cases h
    | succ fuel =>
      rw [List.flatMap_cons, List.append_assoc, readChars_escapedChar,
        ih (Nat.lt_of_succ_lt_succ h), List.reverse_cons, List.append_assoc]
      rfl

theorem length_le_flatMap (cs : List Char) : cs.length ≤ (cs.flatMap escapedChar).length := by
  induction cs with
  | nil => exact Nat.le_refl 0
  | cons c cs ih =>
    have hone : 1 ≤ (escapedChar c).length := by
      rcases escapedChar_cases c with ⟨code, hcode, -⟩ | ⟨hself, -⟩
      · rw [hcode]
        exact Nat.le_add_left 1 _
      · rw [hself]
        exact Nat.le_refl 1
    rw [List.flatMap_cons, List.length_append, List.length_cons]
    omega

/-- **Every text is read back from its quotes.** -/
theorem readString?_escaped (s : String) (rest : List Char) :
    readString? (s.toList.flatMap escapedChar ++ '"' :: rest) = some (s, rest) := by
  have hfuel : s.toList.length < (s.toList.flatMap escapedChar ++ '"' :: rest).length + 1 := by
    have hlength := length_le_flatMap s.toList
    rw [List.length_append]
    omega
  rw [readString?, readChars_flatMap hfuel]
  show some (String.ofList s.toList, rest) = _
  rw [String.ofList_toList]

/-! ### Which values -/

/-- A value whose numbers are integers of a word, signed or not, whose records are kept in the order
of their keys, and that is nested at most `depth` deep. -/
inductive Integral : (depth : Nat) → Value → Prop
  | null {depth} : Integral depth .null
  | bool {depth} (b : Bool) : Integral depth (.bool b)
  | int {depth i} : Number.minInt ≤ i → i < Number.unsignedBound → Integral depth (.num (.int i))
  | str {depth} (s : String) : Integral depth (.str s)
  | arr {depth items} : (∀ v ∈ items, Integral depth v) → Integral (depth + 1) (.arr items)
  | obj {depth} {fields : Fields} :
      fields.Ordered → (∀ entry ∈ fields, Integral depth entry.2) →
      Integral (depth + 1) (.obj fields)

/-- A value is read back from its text, whatever stands behind it, with two steps a character. -/
def ReadsBack (depth : Nat) (v : Value) : Prop :=
  ∀ (fuel : Nat) (rest : List Char), 2 * v.text.toList.length ≤ fuel + 1 → EndsNumeral rest →
    readValue (fuel + 1) (depth + 1) (v.text.toList ++ rest) = some (v, rest)

/-! ### Gaps and first characters -/

theorem skipGap_cons {c : Char} (h : isGap c = false) (cs : List Char) :
    skipGap (c :: cs) = c :: cs :=
  List.dropWhile_cons_of_neg (by rw [h]; exact Bool.false_ne_true)

/-- A digit is nothing else to a reader. -/
theorem isGap_of_isDigit {c : Char} (h : c.isDigit = true) : isGap c = false := by
  have hne : ∀ d : Char, d.isDigit = false → (c == d) = false := by
    intro d hd
    rw [beq_eq_false_iff_ne]
    rintro rfl
    rw [hd] at h
    cases h
  rw [isGap, hne ' ' rfl, hne '\n' rfl, hne '\t' rfl, hne '\r' rfl]
  rfl

theorem readValue_of_isDigit {c : Char} (h : c.isDigit = true) (fuel depth : Nat)
    (cs : List Char) :
    readValue (fuel + 1) depth (c :: cs)
      = (readNumber? false (c :: cs)).map fun (n, rest) => (.num n, rest) := by
  rw [readValue, skipGap_cons (isGap_of_isDigit h)]
  split
  · next heq => cases heq; cases h
  · next heq => cases heq; cases h
  · next heq => cases heq; cases h
  · next heq => cases heq; cases h
  · next heq => cases heq; exact if_pos h
  · next heq => cases heq

/-! ### Integers -/

/-- The text of a natural number starts with a digit. -/
theorem exists_toDigits_eq_cons (n : Nat) :
    ∃ c cs, Nat.toDigits 10 n = c :: cs ∧ c.isDigit = true := by
  obtain ⟨c, cs, h⟩ := List.exists_cons_of_ne_nil (Nat.toDigits_ne_nil (n := n) (b := 10))
  exact ⟨c, cs, h, Nat.isDigit_of_mem_toDigits (by decide) (by decide) (h ▸ List.mem_cons_self)⟩

/-- A natural number is read behind its first digit. -/
theorem readValue_toDigits {n : Nat} (hword : n ≤ maxWord) {rest : List Char}
    (hrest : EndsNumeral rest) (fuel depth : Nat) :
    readValue (fuel + 1) depth (Nat.toDigits 10 n ++ rest) = some (.num (.int n), rest) := by
  have hread := readNumber?_toDigits hword hrest false
  obtain ⟨c, cs, hdigits, hc⟩ := exists_toDigits_eq_cons n
  rw [hdigits, List.cons_append] at hread ⊢
  rw [readValue_of_isDigit hc, hread]
  rfl

/-- A negative number is read behind its sign. -/
theorem readValue_neg_toDigits {n : Nat} (hne : n ≠ 0) (hword : n ≤ Nat.pow 2 63)
    {rest : List Char} (hrest : EndsNumeral rest) (fuel depth : Nat) :
    readValue (fuel + 1) depth ('-' :: (Nat.toDigits 10 n ++ rest))
      = some (.num (.int (-(n : Int))), rest) := by
  have hmax : n ≤ maxWord := Nat.le_trans hword (by decide)
  have hread := readNumber?_toDigits hmax hrest true
  rw [if_neg (by decide), if_neg hne, if_pos hword] at hread
  show (readNumber? true (Nat.toDigits 10 n ++ rest)).map _ = _
  rw [hread]
  rfl

/-- **Integers of a word are read back.** -/
theorem readsBack_int {i : Int} (hmin : Number.minInt ≤ i) (hmax : i < Number.unsignedBound)
    (depth : Nat) : ReadsBack depth (.num (.int i)) := by
  intro fuel rest _ hrest
  have hleast : Number.minInt = -(Nat.pow 2 63 : Nat) := rfl
  have hbound : Number.unsignedBound = (maxWord + 1 : Nat) := rfl
  show readValue (fuel + 1) (depth + 1) ((Text.intText i).toList ++ rest) = _
  unfold Text.intText
  split
  · have habs : -(i.natAbs : Int) = i := by omega
    rw [String.toList_append, Text.toList_natText]
    have hread := readValue_neg_toDigits (n := i.natAbs) (by omega) (by omega) hrest fuel
      (depth + 1)
    rwa [habs] at hread
  · have habs : (i.natAbs : Int) = i := by omega
    rw [Text.toList_natText]
    have hread := readValue_toDigits (n := i.natAbs) (by omega) hrest fuel (depth + 1)
    rwa [habs] at hread

/-! ### Lists and records -/

/-- The first character of a text is no gap and ends no list. -/
theorem exists_text_eq_cons {depth : Nat} {v : Value} (h : v.Integral depth) :
    ∃ c cs, v.text.toList = c :: cs ∧ isGap c = false ∧ c ≠ ']' := by
  cases h with
  | null => exact ⟨_, _, rfl, rfl, by decide⟩
  | bool b => cases b <;> exact ⟨_, _, rfl, rfl, by decide⟩
  | @int _ i hmin hmax =>
    show ∃ c cs, (Text.intText i).toList = c :: cs ∧ _
    unfold Text.intText
    split
    · rw [String.toList_append]
      exact ⟨_, _, rfl, rfl, by decide⟩
    · obtain ⟨c, cs, hdigits, hc⟩ := exists_toDigits_eq_cons i.natAbs
      rw [Text.toList_natText]
      refine ⟨c, cs, hdigits, isGap_of_isDigit hc, ?_⟩
      rintro rfl
      cases hc
  | str s =>
    show ∃ c cs, (escaped s).toList = c :: cs ∧ _
    rw [escaped, String.toList_ofList]
    exact ⟨_, _, rfl, rfl, by decide⟩
  | arr =>
    rw [text, String.toList_append, String.toList_append]
    exact ⟨_, _, rfl, rfl, by decide⟩
  | obj =>
    rw [text, String.toList_append, String.toList_append]
    exact ⟨_, _, rfl, rfl, by decide⟩

theorem textItems_cons_cons (v next : Value) (rest : List Value) :
    (textItems (v :: next :: rest)).toList
      = v.text.toList ++ ',' :: (textItems (next :: rest)).toList := by
  rw [textItems, textMoreItems, String.toList_append, String.toList_append, String.toList_append,
    textItems, String.toList_append]
  show _ ++ ([','] ++ _ ++ _) = _
  simp

theorem textItems_singleton (v : Value) : (textItems [v]).toList = v.text.toList := by
  rw [textItems, textMoreItems, String.toList_append]
  exact List.append_nil _

theorem endsNumeral_cons {c : Char} (h : c = ',' ∨ c = ']' ∨ c = '\x7d') (rest : List Char) :
    EndsNumeral (c :: rest) := by
  intro d hd
  obtain rfl : c = d := Option.some.inj hd
  rcases h with rfl | rfl | rfl <;> decide

/-- Steps for the first character of a value. -/
theorem exists_fuel {depth fuel : Nat} {v : Value} (h : v.Integral depth)
    (hfuel : 2 * v.text.toList.length ≤ fuel) : ∃ less, fuel = less + 1 := by
  obtain ⟨c, cs, htext, -, -⟩ := exists_text_eq_cons h
  rw [htext, List.length_cons] at hfuel
  exact Nat.exists_eq_succ_of_ne_zero (by omega)

/-- Items that are read back one by one are read back together. -/
theorem readItems_textItems {depth : Nat} {items : List Value}
    (hitems : ∀ v ∈ items, v.Integral depth ∧ ReadsBack depth v) (hne : items ≠ []) {fuel : Nat}
    (hfuel : 2 * (textItems items).toList.length ≤ fuel) (rest : List Char) :
    readItems (fuel + 1) (depth + 1) ((textItems items).toList ++ ']' :: rest)
      = some (items, rest) := by
  induction items generalizing fuel with
  | nil => exact absurd rfl hne
  | cons v items ih =>
    obtain ⟨hintegral, hread⟩ := hitems v List.mem_cons_self
    cases items with
    | nil =>
      rw [textItems_singleton] at hfuel ⊢
      obtain ⟨less, rfl⟩ := exists_fuel hintegral hfuel
      rw [readItems, hread less _ hfuel (endsNumeral_cons (.inr (.inl rfl)) rest),
        Option.bind_some]
      rfl
    | cons next items =>
      rw [textItems_cons_cons, List.length_append, List.length_cons] at hfuel
      obtain ⟨less, rfl⟩ := exists_fuel hintegral (show 2 * v.text.toList.length ≤ fuel by omega)
      have hmore := ih (fun w hw => hitems w (List.mem_cons_of_mem v hw)) (List.cons_ne_nil _ _)
        (show 2 * (textItems (next :: items)).toList.length ≤ less by omega)
      rw [textItems_cons_cons, List.append_assoc, List.cons_append, readItems,
        hread less _ (by omega) (endsNumeral_cons (.inl rfl) _), Option.bind_some]
      show (readItems (less + 1) (depth + 1) _).map _ = _
      rw [hmore]
      rfl

/-- A list that is not closed at once has items. -/
theorem readValue_bracket {c : Char} (hgap : isGap c = false) (hc : c ≠ ']') (fuel depth : Nat)
    (cs : List Char) :
    readValue (fuel + 1) (depth + 2) ('[' :: c :: cs)
      = (readItems fuel (depth + 1) (c :: cs)).map fun (items, rest) => (.arr items, rest) := by
  rw [readValue, skipGap_cons rfl]
  refine (if_neg (show ¬depth + 2 ≤ 1 by omega)).trans ?_
  rw [skipGap_cons hgap]
  split
  · next heq => cases heq; exact absurd rfl hc
  · rfl

theorem readsBack_arr {depth : Nat} {items : List Value}
    (hitems : ∀ v ∈ items, v.Integral depth ∧ ReadsBack depth v) :
    ReadsBack (depth + 1) (.arr items) := by
  intro fuel rest hfuel _
  have htext : (Value.arr items).text.toList = '[' :: ((textItems items).toList ++ [']']) := by
    rw [text, String.toList_append, String.toList_append]
    rfl
  rw [htext] at hfuel ⊢
  rw [List.length_cons, List.length_append, List.length_singleton] at hfuel
  rw [List.cons_append, List.append_assoc, List.singleton_append]
  cases items with
  | nil => rfl
  | cons v items =>
    obtain ⟨less, rfl⟩ : ∃ less, fuel = less + 1 := Nat.exists_eq_succ_of_ne_zero (by omega)
    have hread := readItems_textItems hitems (List.cons_ne_nil v items)
      (show 2 * (textItems (v :: items)).toList.length ≤ less by omega) rest
    obtain ⟨c, cs, hcons, hgap, hc⟩ := exists_text_eq_cons (hitems v List.mem_cons_self).1
    have hfirst : (textItems (v :: items)).toList
        = c :: (cs ++ (textMoreItems items).toList) := by
      rw [textItems, String.toList_append, hcons, List.cons_append]
    rw [hfirst, List.cons_append] at hread ⊢
    rw [readValue_bracket hgap hc, hread]
    rfl

theorem toList_textEntry (key : String) (v : Value) :
    (textEntry (key, v)).toList
      = '"' :: (key.toList.flatMap escapedChar ++ '"' :: ':' :: v.text.toList) := by
  rw [textEntry, escaped, String.toList_append, String.toList_append, String.toList_ofList]
  show '"' :: ((_ ++ ['"']) ++ [':'] ++ _) = _
  simp

theorem textFields_cons_cons (entry next : String × Value) (rest : List (String × Value)) :
    (textFields (entry :: next :: rest)).toList
      = (textEntry entry).toList ++ ',' :: (textFields (next :: rest)).toList := by
  rw [textFields, textMoreFields, String.toList_append, String.toList_append,
    String.toList_append, textFields, String.toList_append]
  show _ ++ ([','] ++ _ ++ _) = _
  simp

theorem textFields_singleton (entry : String × Value) :
    (textFields [entry]).toList = (textEntry entry).toList := by
  rw [textFields, textMoreFields, String.toList_append]
  exact List.append_nil _

/-- A key and its value, behind which the record is closed. -/
theorem readEntries_last {depth fuel : Nat} {key : String} {v : Value} (hread : ReadsBack depth v)
    (hfuel : 2 * v.text.toList.length ≤ fuel + 1) (rest : List Char) :
    readEntries (fuel + 2) (depth + 1) ((textEntry (key, v)).toList ++ '\x7d' :: rest)
      = some ([(key, v)], rest) := by
  rw [toList_textEntry, List.cons_append, List.append_assoc, List.cons_append, List.cons_append,
    readEntries, skipGap_cons rfl]
  show (readString? _).bind _ = _
  rw [readString?_escaped, Option.bind_some]
  show (readValue _ _ _).bind _ = _
  rw [hread fuel _ hfuel (endsNumeral_cons (.inr (.inr rfl)) rest), Option.bind_some]
  rfl

/-- A key and its value, behind which the record goes on. -/
theorem readEntries_more {depth fuel : Nat} {key : String} {v : Value} (hread : ReadsBack depth v)
    (hfuel : 2 * v.text.toList.length ≤ fuel + 1) (rest : List Char) :
    readEntries (fuel + 2) (depth + 1) ((textEntry (key, v)).toList ++ ',' :: rest)
      = (readEntries (fuel + 1) (depth + 1) rest).map fun more => ((key, v) :: more.1, more.2) := by
  rw [toList_textEntry, List.cons_append, List.append_assoc, List.cons_append, List.cons_append,
    readEntries, skipGap_cons rfl]
  show (readString? _).bind _ = _
  rw [readString?_escaped, Option.bind_some]
  show (readValue _ _ _).bind _ = _
  rw [hread fuel _ hfuel (endsNumeral_cons (.inl rfl) rest), Option.bind_some]
  rfl

/-- Entries that are read back one by one are read back together. -/
theorem readEntries_textFields {depth : Nat} {fields : List (String × Value)}
    (hfields : ∀ entry ∈ fields, ReadsBack depth entry.2) (hne : fields ≠ []) {fuel : Nat}
    (hfuel : 2 * (textFields fields).toList.length ≤ fuel) (rest : List Char) :
    readEntries (fuel + 1) (depth + 1) ((textFields fields).toList ++ '\x7d' :: rest)
      = some (fields, rest) := by
  induction fields generalizing fuel with
  | nil => exact absurd rfl hne
  | cons entry fields ih =>
    obtain ⟨key, v⟩ := entry
    have hread : ReadsBack depth v := hfields (key, v) List.mem_cons_self
    have hlength : (textEntry (key, v)).toList.length
        = (key.toList.flatMap escapedChar).length + v.text.toList.length + 3 := by
      rw [toList_textEntry]
      simp only [List.length_cons, List.length_append]
      omega
    cases fields with
    | nil =>
      rw [textFields_singleton] at hfuel ⊢
      obtain ⟨less, rfl⟩ : ∃ less, fuel = less + 1 := Nat.exists_eq_succ_of_ne_zero (by omega)
      exact readEntries_last hread (by omega) rest
    | cons next fields =>
      rw [textFields_cons_cons, List.length_append, List.length_cons] at hfuel
      obtain ⟨less, rfl⟩ : ∃ less, fuel = less + 1 := Nat.exists_eq_succ_of_ne_zero (by omega)
      have hmore := ih (fun more hmore => hfields more (List.mem_cons_of_mem _ hmore))
        (List.cons_ne_nil _ _)
        (show 2 * (textFields (next :: fields)).toList.length ≤ less by omega)
      rw [textFields_cons_cons, List.append_assoc, List.cons_append,
        readEntries_more hread (by omega), hmore]
      rfl

/-- A record that is not closed at once has entries. -/
theorem readValue_brace (fuel depth : Nat) (cs : List Char) :
    readValue (fuel + 1) (depth + 2) ('\x7b' :: '"' :: cs)
      = (readEntries fuel (depth + 1) ('"' :: cs)).map fun (entries, rest) =>
          (.obj (Fields.ofList entries), rest) := by
  rw [readValue, skipGap_cons rfl]
  exact if_neg (show ¬depth + 2 ≤ 1 by omega)

theorem readsBack_obj {depth : Nat} {fields : Fields} (hordered : fields.Ordered)
    (hfields : ∀ entry ∈ fields, ReadsBack depth entry.2) :
    ReadsBack (depth + 1) (.obj fields) := by
  intro fuel rest hfuel _
  have htext : (Value.obj fields).text.toList
      = '\x7b' :: ((textFields fields).toList ++ ['\x7d']) := by
    rw [text, String.toList_append, String.toList_append]
    rfl
  rw [htext] at hfuel ⊢
  rw [List.length_cons, List.length_append, List.length_singleton] at hfuel
  rw [List.cons_append, List.append_assoc, List.singleton_append]
  cases fields with
  | nil => rfl
  | cons entry fields =>
    obtain ⟨less, rfl⟩ : ∃ less, fuel = less + 1 := Nat.exists_eq_succ_of_ne_zero (by omega)
    have hread := readEntries_textFields hfields (List.cons_ne_nil entry fields)
      (show 2 * (textFields (entry :: fields)).toList.length ≤ less by omega) rest
    have hfirst : ∃ cs, (textFields (entry :: fields)).toList = '"' :: cs := by
      rw [textFields, String.toList_append, toList_textEntry]
      exact ⟨_, rfl⟩
    obtain ⟨cs, hcs⟩ := hfirst
    rw [hcs, List.cons_append] at hread ⊢
    rw [readValue_brace, hread]
    show some (Value.obj (Fields.ofList (entry :: fields)), rest) = _
    rw [Fields.ofList_of_ordered hordered]

/-! ### All values -/

theorem readsBack_str (depth : Nat) (s : String) : ReadsBack depth (.str s) := by
  intro fuel rest _ _
  have htext : (Value.str s).text.toList = '"' :: (s.toList.flatMap escapedChar ++ ['"']) :=
    String.toList_ofList
  rw [htext, List.cons_append, List.append_assoc, List.singleton_append, readValue,
    skipGap_cons rfl]
  show (readString? _).map _ = _
  rw [readString?_escaped]
  rfl

/-- **Every value of integers is read back from its text.** -/
theorem Integral.readsBack {depth : Nat} {v : Value} (h : v.Integral depth) :
    ReadsBack depth v := by
  induction h with
  | null => exact fun _ _ _ _ => rfl
  | bool b => cases b <;> exact fun _ _ _ _ => rfl
  | int hmin hmax => exact readsBack_int hmin hmax _
  | str s => exact readsBack_str _ s
  | arr hitems ih => exact readsBack_arr fun v hv => ⟨hitems v hv, ih v hv⟩
  | obj hordered _ ih => exact readsBack_obj hordered ih

/-- A whole text is read up to its end. -/
theorem ofChars?_text {v : Value} (h : v.Integral (maxDepth - 1)) :
    ofChars? v.text.toList = some v := by
  have hend : EndsNumeral [] := by simp [EndsNumeral]
  have hread := h.readsBack (2 * v.text.toList.length + 1) [] (by omega) hend
  rw [List.append_nil] at hread
  unfold ofChars?
  rw [show maxDepth = maxDepth - 1 + 1 from rfl, hread]
  rfl

end Runbook.Value
