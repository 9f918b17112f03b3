import Runbook.Proofs.Template.Printed
/-!
# How the leaves of actions are read

References, truth values, numerals and strings, in front of what can stand behind them.

* `Nexts` — the first character of a text that is not blank is one of those given;
* `Tail` — what stands behind an operand: a closing parenthesis, the end of a tag, or a blank and an
  operator;
* `readDotted_append` — a path is read as far as it goes;
* `readBool_append`, `readDouble_append`, `readInt_append` — a literal is read as if nothing stood
  behind it;
* `readString_quoted` — a text between quotes that it does not hold is read whole.

A reader skips the blanks in front of what it reads, so the text is given up to blanks.
-/

namespace Runbook.Template.Action

open Runbook.Text

/-- What holds of all members of a list of characters is decided by going through the list, and not
through all characters. -/
scoped instance (priority := high) decidableForallMem (p : Char → Prop) [DecidablePred p]
    (cs : List Char) : Decidable (∀ c ∈ cs, p c) :=
  List.decidableBAll p cs

/-! ### Alternatives -/

theorem readFirst_of_some {α : Type} {read : List Char → Read α} {cs : List Char}
    {found : α × List Char} (h : read cs = some found) (others : List (List Char → Read α)) :
    readFirst (read :: others) cs = some found := by
  unfold readFirst
  rw [h]

theorem readFirst_of_none {α : Type} {read : List Char → Read α} {cs : List Char}
    (h : read cs = none) (others : List (List Char → Read α)) :
    readFirst (read :: others) cs = readFirst others cs := by
  conv => lhs; unfold readFirst
  rw [h]

theorem readBoth_of_none {α β : Type} {first : List Char → Read α} {cs : List Char}
    (h : first cs = none) (second : List Char → Read β) : readBoth first second cs = none := by
  unfold readBoth
  rw [h]
  rfl

/-! ### The next character -/

/-- Where no blank stands, none is skipped. -/
theorem skip_cons {c : Char} (h : isSpace c = false) (cs : List Char) :
    skip (c :: cs) = c :: cs := by
  unfold skip
  rw [List.dropWhile_cons, h]
  rfl

/-- The first character that is not blank is one of these. -/
def Nexts (allowed cs : List Char) : Prop :=
  ∃ c rest, skip cs = c :: rest ∧ c ∈ allowed

theorem dropStart?_of_ne {p c : Char} (h : p ≠ c) (ps cs : List Char) :
    dropStart? (p :: ps) (c :: cs) = none :=
  if_neg h

/-- Whether a word starts with a character outside a list. -/
def startsOutside (allowed : List Char) (word : String) : Bool :=
  match word.toList with
  | [] => false
  | p :: _ => !allowed.contains p

theorem dropStart?_of_startsOutside {allowed : List Char} {word : String} {c : Char}
    (h : startsOutside allowed word = true) (hc : c ∈ allowed) (cs : List Char) :
    dropStart? word.toList (c :: cs) = none := by
  unfold startsOutside at h
  cases hword : word.toList with
  | nil =>
    rw [hword] at h
    cases h
  | cons p ps =>
    rw [hword] at h
    refine dropStart?_of_ne ?_ ps cs
    rintro rfl
    have hnot : (!allowed.contains p) = true := h
    rw [List.contains_iff_mem.2 hc] at hnot
    cases hnot

namespace Nexts

variable {allowed cs : List Char}

theorem mono {wider : List Char} (h : Nexts allowed cs) (hsub : allowed ⊆ wider) :
    Nexts wider cs := by
  obtain ⟨c, rest, hskip, hc⟩ := h
  exact ⟨c, rest, hskip, hsub hc⟩

/-- A symbol that starts differently is not there. -/
theorem readSymbol (h : Nexts allowed cs) {symbol : String}
    (hsymbol : startsOutside allowed symbol = true) : readSymbol symbol cs = none := by
  obtain ⟨c, rest, hskip, hc⟩ := h
  unfold Template.readSymbol
  rw [hskip]
  exact dropStart?_of_startsOutside hsymbol hc rest

/-- A keyword that starts differently is not there. -/
theorem readKeyword (h : Nexts allowed cs) {word : String}
    (hword : startsOutside allowed word = true) : readKeyword word cs = none := by
  obtain ⟨c, rest, hskip, hc⟩ := h
  unfold Template.readKeyword
  rw [hskip, dropStart?_of_startsOutside hword hc rest]

/-- No comparison starts otherwise. -/
theorem readCompareOp (h : Nexts allowed cs) (hops : ∀ c ∈ allowed, c ∉ ['<', '>', '=', '!']) :
    readCompareOp cs = none := by
  obtain ⟨c, rest, hskip, hc⟩ := h
  have hne : ∀ op ∈ ['<', '>', '=', '!'], ∀ more, c :: rest ≠ op :: more := by
    rintro op hop more heq
    cases heq
    exact hops c hc hop
  unfold Template.readCompareOp
  rw [hskip]
  split
  · next heq => exact absurd heq (hne '<' (by decide) _)
  · next heq => exact absurd heq (hne '>' (by decide) _)
  · next heq => exact absurd heq (hne '>' (by decide) _)
  · next heq => exact absurd heq (hne '<' (by decide) _)
  · next heq => exact absurd heq (hne '=' (by decide) _)
  · next heq => exact absurd heq (hne '!' (by decide) _)
  · rfl

/-- No arithmetic starts otherwise. -/
theorem readMathOp (h : Nexts allowed cs)
    (hops : ∀ c ∈ allowed, c ∉ ['+', '-', '*', '/', '%']) : readMathOp cs = none := by
  obtain ⟨c, rest, hskip, hc⟩ := h
  have hne : ∀ op ∈ ['+', '-', '*', '/', '%'], ∀ more, c :: rest ≠ op :: more := by
    rintro op hop more heq
    cases heq
    exact hops c hc hop
  unfold Template.readMathOp
  rw [hskip]
  split
  · next heq => exact absurd heq (hne '+' (by decide) _)
  · next heq => exact absurd heq (hne '-' (by decide) _)
  · next heq => exact absurd heq (hne '*' (by decide) _)
  · next heq => exact absurd heq (hne '/' (by decide) _)
  · next heq => exact absurd heq (hne '%' (by decide) _)
  · rfl

/-- No connective starts otherwise. -/
theorem readLogicOp (h : Nexts allowed cs) (hor : startsOutside allowed "or" = true)
    (hand : startsOutside allowed "and" = true) : readLogicOp cs = none := by
  unfold Template.readLogicOp
  rw [h.readKeyword hor, h.readKeyword hand]
  rfl

end Nexts

/-! ### What stands behind an operand -/

/-- The characters of the end of a tag behind its mark, which could be an operator. -/
def tagEnds : List Char := ['}', '%']

/-- What stands behind an operand: a closing parenthesis, a blank and one of the characters that are
allowed, or the end of a tag that starts like an operator. -/
inductive Tail (allowed : List Char) : List Char → Prop where
  | closing (rest : List Char) : Tail allowed (')' :: rest)
  | spaced {c : Char} (hc : c ∈ allowed) (rest : List Char) : Tail allowed (' ' :: c :: rest)
  | trimming {c : Char} (hc : c ∈ tagEnds) (rest : List Char) :
    Tail allowed (' ' :: '-' :: c :: rest)
  | statement (rest : List Char) : Tail allowed (' ' :: '%' :: '}' :: rest)

/-- The characters that any tail can start with. -/
def closers : List Char := [')', '-', '%']

/-- Behind a whole expression: the end of the tag. -/
def chainEnds : List Char := ['}']

/-- Behind an operand of a connective: a connective as well. -/
def operandEnds : List Char := 'o' :: 'a' :: chainEnds

/-- Behind an operand of a comparison: a comparison as well. -/
def filteredEnds : List Char := '=' :: '!' :: '<' :: '>' :: operandEnds

/-- Behind a term: a filter as well. -/
def termEnds : List Char := '|' :: filteredEnds

namespace Tail

variable {allowed R : List Char}

theorem mono {wider : List Char} (h : Tail allowed R) (hsub : allowed ⊆ wider) :
    Tail wider R := by
  cases h with
  | closing rest => exact closing rest
  | spaced hc rest => exact spaced (hsub hc) rest
  | trimming hc rest => exact trimming hc rest
  | statement rest => exact statement rest

theorem head (h : Tail allowed R) : ∀ d ∈ R.head?, d = ')' ∨ d = ' ' := by
  intro d hd
  cases h with
  | closing rest => exact .inl (Option.some.inj hd).symm
  | spaced hc rest => exact .inr (Option.some.inj hd).symm
  | trimming hc rest => exact .inr (Option.some.inj hd).symm
  | statement rest => exact .inr (Option.some.inj hd).symm

theorem nexts (h : Tail allowed R) (hspace : ∀ c ∈ allowed, isSpace c = false) :
    Nexts (closers ++ allowed) R := by
  cases h with
  | closing rest => exact ⟨')', rest, rfl, List.mem_append_left _ (by decide)⟩
  | trimming hc rest => exact ⟨'-', _, rfl, List.mem_append_left _ (by decide)⟩
  | statement rest => exact ⟨'%', _, rfl, List.mem_append_left _ (by decide)⟩
  | @spaced c hc rest => exact ⟨c, rest, skip_cons (hspace c hc) rest, List.mem_append_right _ hc⟩

/-- A run of characters that are neither blanks nor parentheses does not go on in the tail. -/
theorem not_head (h : Tail allowed R) {p : Char → Bool} (hclose : p ')' = false)
    (hspace : p ' ' = false) : ∀ c ∈ R.head?, p c = false := by
  intro c hc
  rcases h.head c hc with rfl | rfl
  · exact hclose
  · exact hspace

theorem stops (h : Tail allowed R) {p : Char → Bool} (hclose : p ')' = false)
    (hspace : p ' ' = false) : R.takeWhile p = [] ∧ R.dropWhile p = R := by
  have htake := takeWhile_append_of_head? (h.not_head hclose hspace) []
  have hdrop := dropWhile_append_of_head? (h.not_head hclose hspace) []
  exact ⟨htake, hdrop⟩

theorem takeWhile_append (h : Tail allowed R) {p : Char → Bool} (hclose : p ')' = false)
    (hspace : p ' ' = false) (cs : List Char) : (cs ++ R).takeWhile p = cs.takeWhile p :=
  takeWhile_append_of_head? (h.not_head hclose hspace) cs

theorem dropWhile_append (h : Tail allowed R) {p : Char → Bool} (hclose : p ')' = false)
    (hspace : p ' ' = false) (cs : List Char) :
    (cs ++ R).dropWhile p = cs.dropWhile p ++ R :=
  dropWhile_append_of_head? (h.not_head hclose hspace) cs

/-- What stands behind a term starts no symbol but its own. -/
theorem readSymbol (h : Tail termEnds R) {symbol : String}
    (hsymbol : startsOutside (closers ++ termEnds) symbol = true) :
    readSymbol symbol R = none :=
  (h.nexts (by decide)).readSymbol hsymbol

end Tail

/-! ### Paths -/

/-- What a name stands in front of: it does not go on, and no part behind a dot follows. -/
structure EndsName (R : List Char) : Prop where
  stops : R.takeWhile isIdentChar = [] ∧ R.dropWhile isIdentChar = R
  dots : ∀ fuel, readDots fuel R = ([], R)

theorem Tail.endsName {allowed R : List Char} (h : Tail allowed R) : EndsName R := by
  refine ⟨h.stops rfl rfl, fun fuel => ?_⟩
  cases fuel with
  | zero => rfl
  | succ fuel => cases h <;> rfl

theorem endsName_bracket {c : Char} (hc : c ∈ ['[', ']']) (rest : List Char) :
    EndsName (c :: rest) := by
  simp only [List.mem_cons, List.not_mem_nil, or_false] at hc
  rcases hc with rfl | rfl
  · exact ⟨⟨rfl, rfl⟩, fun fuel => by cases fuel <;> rfl⟩
  · exact ⟨⟨rfl, rfl⟩, fun fuel => by cases fuel <;> rfl⟩

/-- An identifier ends where further parts begin, or where names end. -/
theorem dotted_stops {R : List Char} (h : EndsName R) (parts : List (List Char)) :
    ((parts.flatMap fun part => '.' :: part) ++ R).takeWhile isIdentChar = [] ∧
      ((parts.flatMap fun part => '.' :: part) ++ R).dropWhile isIdentChar
        = (parts.flatMap fun part => '.' :: part) ++ R := by
  cases parts with
  | nil => exact h.stops
  | cons part parts => exact ⟨rfl, rfl⟩

theorem length_le_dotted (parts : List (List Char)) (R : List Char) :
    parts.length ≤ ((parts.flatMap fun part => '.' :: part) ++ R).length := by
  induction parts with
  | nil => exact Nat.zero_le _
  | cons part parts ih =>
    rw [List.flatMap_cons, List.append_assoc, List.length_append, List.length_cons,
      List.length_cons]
    omega

/-- The dotted parts of a path are read to the last one. -/
theorem readDots_append {R : List Char} (h : EndsName R)
    {parts : List (List Char)} (hparts : ∀ part ∈ parts, isPathPart part = true) {fuel : Nat}
    (hfuel : parts.length ≤ fuel) :
    readDots fuel (parts.flatMap (fun part => '.' :: part) ++ R)
      = (parts.flatMap fun part => '.' :: part, R) := by
  induction parts generalizing fuel with
  | nil => exact h.dots fuel
  | cons part parts ih =>
    cases fuel with
    | zero => cases hfuel
    | succ fuel =>
      obtain ⟨hne, hall⟩ := Bool.and_eq_true_iff.1 (hparts part List.mem_cons_self)
      cases part with
      | nil => cases hne
      | cons c cs =>
        rw [List.all_cons] at hall
        obtain ⟨hc, hcs⟩ := Bool.and_eq_true_iff.1 hall
        have hstop := dotted_stops h parts
        have hpos : ∀ d ∈ cs, isIdentChar d = true := List.all_eq_true.1 hcs
        rw [List.flatMap_cons, List.append_assoc, List.cons_append, List.cons_append, readDots,
          if_pos hc]
        rw [List.takeWhile_append_of_pos hpos, List.dropWhile_append_of_pos hpos,
          hstop.1, hstop.2, List.append_nil,
          ih (fun p hp => hparts p (List.mem_cons_of_mem _ hp)) (Nat.le_of_succ_le_succ hfuel)]

/-- A path is read as far as it goes. -/
theorem readDotted_append {path R : List Char} (hpath : isPath path = true) (h : EndsName R) :
    readDotted (path ++ R) = some (path, R) := by
  obtain ⟨first, parts, rfl, hfirst, hparts⟩ := exists_parts_of_isPath hpath
  cases first with
  | nil => cases hfirst
  | cons c name =>
    obtain ⟨hc, hname⟩ := Bool.and_eq_true_iff.1 hfirst
    have hbehind := dotted_stops h parts
    have hpos : ∀ d ∈ name, isIdentChar d = true := List.all_eq_true.1 hname
    have hlength : parts.length ≤ ((parts.flatMap fun part => '.' :: part) ++ R).length :=
      length_le_dotted parts R
    rw [List.append_assoc, List.cons_append, readDotted, if_pos hc]
    dsimp only
    rw [List.takeWhile_append_of_pos hpos, List.dropWhile_append_of_pos hpos, hbehind.1, hbehind.2,
      List.append_nil, readDots_append h hparts hlength]

/-- An identifier is read as far as it goes. -/
theorem readIdent_of_identifier {cs name rest : List Char} (hname : isIdentifier name = true)
    (hcs : skip cs = name ++ rest)
    (hrest : rest.takeWhile isIdentChar = [] ∧ rest.dropWhile isIdentChar = rest) :
    readIdent cs = some (String.ofList name, rest) := by
  cases name with
  | nil => cases hname
  | cons c name =>
    obtain ⟨hc, hall⟩ := Bool.and_eq_true_iff.1 hname
    have hpos : ∀ d ∈ name, isIdentChar d = true := List.all_eq_true.1 hall
    unfold readIdent
    rw [hcs, List.cons_append]
    dsimp only
    rw [if_pos hc, List.takeWhile_append_of_pos hpos, List.dropWhile_append_of_pos hpos, hrest.1,
      hrest.2, List.append_nil]

/-- Behind the name at the front of a reference there is no call. -/
theorem readIdent_of_skip {cs path R : List Char} (hpath : IsReference path)
    (hcs : skip cs = path ++ R) (h : Tail termEnds R) :
    ∃ name rest, readIdent cs = some (name, rest) ∧
      Nexts ('.' :: '[' :: (closers ++ termEnds)) rest := by
  obtain ⟨name, behind, rfl, hname, hbehind⟩ := hpath.exists_name
  rw [List.append_assoc] at hcs
  have hsub : closers ++ termEnds ⊆ '.' :: '[' :: (closers ++ termEnds) :=
    fun c hc => List.mem_cons_of_mem _ (List.mem_cons_of_mem _ hc)
  rcases hbehind with rfl | ⟨c, more, rfl, hc⟩
  · exact ⟨_, _, readIdent_of_identifier hname hcs h.endsName.stops,
      (h.nexts (by decide)).mono hsub⟩
  · rcases hc with rfl | rfl
    · exact ⟨_, _, readIdent_of_identifier hname hcs ⟨rfl, rfl⟩, '.', _, rfl, List.mem_cons_self⟩
    · exact ⟨_, _, readIdent_of_identifier hname hcs ⟨rfl, rfl⟩, '[', _, rfl,
        List.mem_cons_of_mem _ List.mem_cons_self⟩

theorem readIdent_of_not_start {cs rest : List Char} {c : Char} (hcs : skip cs = c :: rest)
    (hc : isIdentStart c = false) : readIdent cs = none := by
  unfold readIdent
  rw [hcs]
  dsimp only
  rw [hc]
  rfl

theorem readPath_of_not_start {cs rest : List Char} {c : Char} (hcs : skip cs = c :: rest)
    (hc : isIdentStart c = false) : readPath cs = none := by
  unfold readPath
  rw [hcs]
  dsimp only
  rw [readRef, readDotted, hc]
  rfl

/-! ### Literals -/

/-- A word that is not at the front of a text is not there when something follows that starts with
none of its characters. -/
theorem dropStart?_append_of_head {word cs rest : List Char} (hrest : ∀ d ∈ rest.head?, d ∉ word)
    (hcs : dropStart? word cs = none) : dropStart? word (cs ++ rest) = none := by
  induction word generalizing cs with
  | nil => cases hcs
  | cons p ps ih =>
    have hnext : ∀ d ∈ rest.head?, d ≠ p ∧ d ∉ ps := fun d hd =>
      not_or.1 fun hmem => hrest d hd (List.mem_cons.2 hmem)
    cases cs with
    | nil =>
      cases rest with
      | nil => rfl
      | cons d rest => exact if_neg (Ne.symm (hnext d rfl).1)
    | cons c cs =>
      rw [List.cons_append]
      unfold dropStart? at hcs ⊢
      split at hcs
      · next hp =>
        rw [if_pos hp]
        exact ih (fun d hd => (hnext d hd).2) hcs
      · next hp => rw [if_neg hp]

/-- So it is for a word without blanks and parentheses when a tail follows. -/
theorem dropStart?_append {allowed R : List Char} (h : Tail allowed R) {word cs : List Char}
    (hword : word.all (fun c => c != ')' && c != ' ') = true)
    (hcs : dropStart? word cs = none) : dropStart? word (cs ++ R) = none := by
  refine dropStart?_append_of_head (fun d hd hmem => ?_) hcs
  have hd' := List.all_eq_true.1 hword d hmem
  rcases h.head d hd with rfl | rfl <;> cases hd'

theorem readBool_eq_none {cs : List Char} : readBool cs = none ↔
    dropStart? "true".toList cs = none ∧ dropStart? "false".toList cs = none ∧
      dropStart? "True".toList cs = none ∧ dropStart? "False".toList cs = none := by
  unfold readBool
  split
  · next htrue =>
    rw [htrue]
    exact iff_of_false (Option.some_ne_none _) fun h => Option.some_ne_none _ h.1
  · next htrue =>
    split
    · next hfalse =>
      rw [hfalse]
      exact iff_of_false (Option.some_ne_none _) fun h => Option.some_ne_none _ h.2.1
    · next hfalse =>
      split
      · next hupper =>
        rw [hupper]
        exact iff_of_false (Option.some_ne_none _) fun h => Option.some_ne_none _ h.2.2.1
      · next hupper =>
        rw [Option.map_eq_none_iff]
        exact ⟨fun h => ⟨htrue, hfalse, hupper, h⟩, fun h => h.2.2.2⟩

/-- What does not start with a truth value does not when something follows that no identifier goes
on with. -/
theorem readBool_append_of_head {cs rest : List Char}
    (hrest : ∀ d ∈ rest.head?, isIdentChar d = false) (hcs : readBool cs = none) :
    readBool (cs ++ rest) = none := by
  have hword : ∀ word : List Char, word.all isIdentChar = true → ∀ d ∈ rest.head?, d ∉ word := by
    intro word hall d hd hmem
    have hd' := hrest d hd
    rw [List.all_eq_true.1 hall d hmem] at hd'
    cases hd'
  obtain ⟨htrue, hfalse, hTrue, hFalse⟩ := readBool_eq_none.1 hcs
  exact readBool_eq_none.2 ⟨dropStart?_append_of_head (hword _ (by decide)) htrue,
    dropStart?_append_of_head (hword _ (by decide)) hfalse,
    dropStart?_append_of_head (hword _ (by decide)) hTrue,
    dropStart?_append_of_head (hword _ (by decide)) hFalse⟩

theorem readBool_append {allowed R : List Char} (h : Tail allowed R) {cs : List Char}
    (hcs : readBool cs = none) : readBool (cs ++ R) = none := by
  refine readBool_append_of_head (fun d hd => ?_) hcs
  rcases h.head d hd with rfl | rfl <;> rfl

theorem readBool_of_head {c : Char} (hc : isIdentStart c = false) (rest : List Char) :
    readBool (c :: rest) = none := by
  have hne : ∀ p, isIdentStart p = true → p ≠ c := by
    rintro p hp rfl
    rw [hc] at hp
    cases hp
  exact readBool_eq_none.2 ⟨if_neg (hne 't' rfl), if_neg (hne 'f' rfl), if_neg (hne 'T' rfl),
    if_neg (hne 'F' rfl)⟩

section Numerals

variable {allowed R : List Char}

theorem readDigits_append (h : Tail allowed R) (cs : List Char) :
    readDigits (cs ++ R) = (readDigits cs).map fun (digits, rest) => (digits, rest ++ R) := by
  cases cs with
  | nil => cases h <;> rfl
  | cons c cs =>
    by_cases hzero : c = '0'
    · subst hzero
      rfl
    · have hread : ∀ cs, readDigits (c :: cs)
          = if c.isDigit then some (c :: cs.takeWhile Char.isDigit, cs.dropWhile Char.isDigit)
            else none := by
        intro cs
        unfold readDigits
        split
        · next heq => exact absurd (List.cons.inj heq).1 hzero
        · next heq =>
          cases heq
          rfl
        · next heq => cases heq
      rw [List.cons_append, hread, hread, h.takeWhile_append rfl rfl, h.dropWhile_append rfl rfl]
      split <;> rfl

theorem readSigned_append (h : Tail allowed R) (cs : List Char) :
    readSigned (cs ++ R) = (readSigned cs).map fun (signed, rest) => (signed, rest ++ R) := by
  have hplain : ∀ cs : List Char, (∀ rest, cs ≠ '-' :: rest) →
      readSigned cs = (readDigits cs).map fun (digits, rest) => ((false, digits), rest) := by
    intro cs hcs
    unfold readSigned
    split
    · next rest => exact absurd rfl (hcs rest)
    · rfl
  cases cs with
  | nil => cases h <;> rfl
  | cons c cs =>
    by_cases hminus : c = '-'
    · subst hminus
      show (readDigits (cs ++ R)).map _ = Option.map _ ((readDigits cs).map _)
      rw [readDigits_append h, Option.map_map, Option.map_map]
      rfl
    · have hne : ∀ cs rest, c :: cs ≠ '-' :: rest := fun cs rest heq =>
        hminus (List.cons.inj heq).1
      rw [List.cons_append, hplain _ (hne _), hplain _ (hne _), ← List.cons_append,
        readDigits_append h, Option.map_map, Option.map_map]
      rfl

/-- An integer is read as if nothing stood behind it. -/
theorem readInt_append (h : Tail allowed R) (cs : List Char) :
    readInt (cs ++ R) = (readInt cs).map fun (i, rest) => (i, rest ++ R) := by
  unfold readInt
  rw [readSigned_append h, Option.map_map, Option.map_map]
  rfl

/-- What stands behind the digits of a numeral with a point. -/
def readFraction (negative : Bool) (digits : List Char) : List Char → Read Double
  | '.' :: rest =>
    let (fraction, rest) := Decimal.digitRun rest
    if fraction.isEmpty then none
    else some (Double.ofDecimal negative (Decimal.runValue (digits ++ fraction))
      (-(fraction.length : Int)), rest)
  | _ => none

theorem readDouble_eq_bind (cs : List Char) :
    readDouble cs = (readSigned cs).bind fun ((negative, digits), rest) =>
      readFraction negative digits rest :=
  rfl

theorem readFraction_of_ne (negative : Bool) (digits : List Char) {c : Char} (hc : c ≠ '.')
    (cs : List Char) : readFraction negative digits (c :: cs) = none := by
  unfold readFraction
  split
  · next heq => exact absurd (List.cons.inj heq).1 hc
  · rfl

theorem readFraction_append (h : Tail allowed R) (negative : Bool) (digits cs : List Char) :
    readFraction negative digits (cs ++ R)
      = (readFraction negative digits cs).map fun (d, rest) => (d, rest ++ R) := by
  cases cs with
  | nil => cases h <;> rfl
  | cons c cs =>
    by_cases hpoint : c = '.'
    · subst hpoint
      rw [List.cons_append, readFraction, readFraction, Decimal.digitRun, Decimal.digitRun,
        h.takeWhile_append rfl rfl, h.dropWhile_append rfl rfl]
      dsimp only
      split <;> rfl
    · rw [List.cons_append, readFraction_of_ne _ _ hpoint, readFraction_of_ne _ _ hpoint]
      rfl

/-- A numeral with a point is read as if nothing stood behind it. -/
theorem readDouble_append (h : Tail allowed R) (cs : List Char) :
    readDouble (cs ++ R) = (readDouble cs).map fun (d, rest) => (d, rest ++ R) := by
  rw [readDouble_eq_bind, readDouble_eq_bind, readSigned_append h]
  cases readSigned cs with
  | none => rfl
  | some found => exact readFraction_append h found.1.1 found.1.2 found.2

end Numerals

/-! ### First characters -/

/-- What the text of a tree can start with. -/
def opens (c : Char) : Bool :=
  isIdentStart c || c.isDigit || c == '-' || quotes.contains c || c == '('

theorem isIdentStart_of_isDigit {c : Char} (h : c.isDigit = true) : isIdentStart c = false := by
  have hrange : 48 ≤ c.val.toNat ∧ c.val.toNat ≤ 57 := by
    simpa [Char.isDigit, UInt32.le_iff_toNat_le] using h
  have hne : c ≠ '_' := by
    rintro rfl
    cases h
  unfold isIdentStart
  rw [beq_eq_false_iff_ne.2 hne, Bool.or_false]
  unfold Char.isAlpha Char.isUpper Char.isLower
  simp only [Bool.or_eq_false_iff, Bool.and_eq_false_iff, decide_eq_false_iff_not,
    UInt32.le_iff_toNat_le, ge_iff_le]
  exact ⟨fun hupper => absurd (Nat.le_trans hupper.1 hrange.2) (by decide),
    .inl fun hlower => absurd (Nat.le_trans hlower hrange.2) (by decide)⟩

theorem ne_of_opens {c d : Char} (hc : opens c = true) (hd : opens d = false) : c ≠ d := by
  rintro rfl
  rw [hd] at hc
  cases hc

theorem isSpace_of_opens {c : Char} (hc : opens c = true) : isSpace c = false := by
  unfold isSpace
  rw [beq_eq_false_iff_ne.2 (ne_of_opens hc (by decide : opens ' ' = false)),
    beq_eq_false_iff_ne.2 (ne_of_opens hc (by decide : opens '\t' = false)),
    beq_eq_false_iff_ne.2 (ne_of_opens hc (by decide : opens '\r' = false)),
    beq_eq_false_iff_ne.2 (ne_of_opens hc (by decide : opens '\n' = false))]
  rfl

theorem readDigits_head {cs digits rest : List Char} (h : readDigits cs = some (digits, rest)) :
    ∃ c more, cs = c :: more ∧ c.isDigit = true := by
  unfold readDigits at h
  split at h
  · next more => exact ⟨'0', more, rfl, rfl⟩
  · next c more _ =>
    split at h
    · next hc => exact ⟨c, more, rfl, hc⟩
    · cases h
  · cases h

theorem readSigned_head {cs : List Char} (h : readSigned cs ≠ none) :
    ∃ c more, cs = c :: more ∧ (c = '-' ∨ c.isDigit = true) := by
  unfold readSigned at h
  split at h
  · next more => exact ⟨'-', more, rfl, .inl rfl⟩
  · cases hdigits : readDigits cs with
    | none =>
      rw [hdigits] at h
      exact absurd rfl h
    | some found =>
      obtain ⟨c, more, hcs, hc⟩ := readDigits_head hdigits
      exact ⟨c, more, hcs, .inr hc⟩

theorem readSigned_of_not_numeral {c : Char} (hc : ¬(c = '-' ∨ c.isDigit = true))
    (rest : List Char) : readSigned (c :: rest) = none := by
  refine Classical.byContradiction fun hread => ?_
  obtain ⟨d, more, heq, hd⟩ := readSigned_head hread
  cases heq
  exact hc hd

theorem numeral?_head {text : List Char} {v : Number} (h : numeral? text = some v) :
    ∃ c more, text = c :: more ∧ (c = '-' ∨ c.isDigit = true) := by
  refine readSigned_head fun hnone => ?_
  unfold numeral? readDouble readInt at h
  rw [hnone] at h
  cases h

theorem isIdentStart_of_numeral {c : Char} (h : c = '-' ∨ c.isDigit = true) :
    isIdentStart c = false :=
  h.elim (fun hminus => hminus ▸ rfl) isIdentStart_of_isDigit

theorem not_mem_quotes_of_isIdentStart {c : Char} (hc : isIdentStart c = true) : c ∉ quotes := by
  have hquotes : ∀ q ∈ quotes, isIdentStart q = false := by decide
  intro hmem
  rw [hquotes c hmem] at hc
  cases hc

theorem opens_of_isIdentStart {c : Char} (h : isIdentStart c = true) : opens c = true := by
  unfold opens
  rw [h]
  rfl

theorem opens_of_numeral {c : Char} (h : c = '-' ∨ c.isDigit = true) : opens c = true := by
  rcases h with rfl | h
  · decide
  · unfold opens
    rw [h, Bool.or_true]
    rfl

theorem opens_of_quote {q : Char} (h : q ∈ quotes) : opens q = true := by
  unfold opens
  rw [List.contains_iff_mem.2 h, Bool.or_true]
  rfl

/-- The text of a tree is not empty. -/
theorem Form.exists_head : (f : Form) → f.Printed → ∃ c more, f.text = c :: more ∧ opens c = true
  | ref path, h => by
    obtain ⟨c, more, hpath, hc⟩ := IsReference.head h
    exact ⟨c, more, hpath, opens_of_isIdentStart hc⟩
  | truth true, _ => ⟨'t', _, rfl, by decide⟩
  | truth false, _ => ⟨'f', _, rfl, by decide⟩
  | num text v, h => by
    obtain ⟨c, more, htext, hc⟩ := numeral?_head h
    exact ⟨c, more, htext, opens_of_numeral hc⟩
  | str q text, h => ⟨q, _, rfl, opens_of_quote h.1⟩
  | filtered arg name, h => by
    obtain ⟨c, more, harg, hc⟩ := arg.exists_head h.1
    exact ⟨c, more ++ (bar ++ name), congrArg (· ++ _) harg, hc⟩
  | compared op lhs rhs, h => by
    obtain ⟨c, more, hlhs, hc⟩ := lhs.exists_head h.1
    exact ⟨c, more ++ ' ' :: (operator op ++ ' ' :: rhs.text), congrArg (· ++ _) hlhs, hc⟩
  | negated arg, _ => ⟨'n', _, rfl, by decide⟩
  | joined op lhs rhs, h => by
    obtain ⟨c, more, hlhs, hc⟩ := lhs.exists_head h.1
    exact ⟨c, more ++ ' ' :: (connective op ++ ' ' :: rhs.text), congrArg (· ++ _) hlhs, hc⟩
  | closed inner, _ => ⟨'(', _, rfl, by decide⟩

/-- There is no blank in front of the text of a tree. -/
theorem Form.skip_text {f : Form} (h : f.Printed) (R : List Char) :
    skip (f.text ++ R) = f.text ++ R := by
  obtain ⟨c, more, htext, hc⟩ := f.exists_head h
  rw [htext, List.cons_append]
  exact skip_cons (isSpace_of_opens hc) _

/-! ### Terms -/

/-- The term of a number. -/
def numberTerm : Number → Template.Term
  | .int i => .int i
  | .double d => .double d

theorem readNumeral_of_skip {allowed cs text R : List Char} {v : Number}
    (hnum : numeral? text = some v) (hcs : skip cs = text ++ R) (h : Tail allowed R) :
    readFirst [readDoubleTerm, readIntTerm] cs = some (numberTerm v, R) := by
  unfold numeral? at hnum
  split at hnum
  · next d hdouble =>
    cases hnum
    have hread : readDoubleTerm cs = some (.double d, R) := by
      unfold readDoubleTerm
      rw [hcs, readDouble_append h, hdouble]
      rfl
    exact readFirst_of_some hread _
  · cases hnum
  · next hdouble =>
    split at hnum
    · next i hint =>
      split at hnum
      · next hrange =>
        cases hnum
        have hskip : readDoubleTerm cs = none := by
          unfold readDoubleTerm
          rw [hcs, readDouble_append h, hdouble]
          rfl
        have hread : readIntTerm cs = some (.int i, R) := by
          unfold readIntTerm
          rw [hcs, readInt_append h, hint]
          exact if_pos hrange
        rw [readFirst_of_none hskip _]
        exact readFirst_of_some hread _
      · cases hnum
    · cases hnum

/-! ### Strings -/

section Strings

variable {q c : Char} {cs text R : List Char}

theorem mem_quotes_iff : c ∈ quotes ↔ c = '"' ∨ c = '\'' ∨ c = '\x60' := by
  simp [quotes]

theorem readString_eq_none (hc : c ∉ quotes) (cs : List Char) : readString (c :: cs) = none :=
  if_neg fun h => hc (mem_quotes_iff.2 h)

theorem readString_of_mem (hc : c ∈ quotes) (cs : List Char) :
    readString (c :: cs) = readUntil c cs :=
  if_pos (mem_quotes_iff.1 hc)

/-- Between its quotes a text that does not hold them is read whole. -/
theorem readString_quoted (hq : q ∈ quotes) (htext : q ∉ text) (R : List Char) :
    readString (q :: (text ++ q :: R)) = some (text, R) := by
  have hinside : ∀ c ∈ text, (c == q) = false := by
    intro c hc
    rw [beq_eq_false_iff_ne]
    rintro rfl
    exact htext hc
  rw [readString_of_mem hq]
  exact splitAtFirst?_append_cons hinside (beq_self_eq_true q) R

/-- A string is read up to its quote. -/
theorem readString_of_skip (hq : q ∈ quotes) (htext : text.contains q = false)
    (hcs : skip cs = (Form.str q text).text ++ R) : readString (skip cs) = some (text, R) := by
  have hnot : q ∉ text := by
    rw [← List.contains_iff_mem, htext]
    exact Bool.false_ne_true
  rw [hcs]
  show readString (q :: (text ++ [q] ++ R)) = _
  rw [List.append_assoc]
  exact readString_quoted hq hnot R

end Strings

end Runbook.Template.Action
