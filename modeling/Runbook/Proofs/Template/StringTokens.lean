import Runbook.Proofs.Template.Tags
import Runbook.Proofs.Template.Comments
/-!
# Strings in actions

How a text is written as a string in an action, and that it is read back as it was wherever it
stands.

* `Spells` — the spellings of a text between double quotes; `Written` — a text between double quotes
  or backticks;
* `readQuoted?_iff`, `readRaw?_iff` — a string is read up to its closing quote;
* `lexeme?`, `Lexeme`, `scan?_induct` — the tokens of a text one by one;
* `scan?_append_written` — a written text is one token, between those in front of it and behind it;
* `Scope.tag?_written` — the trim markers and blanks of a tag leave the strings in it alone;
* `Scope.tag?_unclosed` — a tag with a string that is not closed is left alone.
-/

namespace Runbook.Template.Action

open Runbook.Text

/-! ### Spellings -/

/-- How a text is spelled between double quotes: behind a backslash stands any character, without
one any but the double quote and the backslash. -/
inductive Spells : List Char → List Char → Prop where
  | nil : Spells [] []
  | plain {c : Char} {s t : List Char} (hquote : c ≠ '"') (hslash : c ≠ '\\') (h : Spells s t) :
    Spells (c :: s) (c :: t)
  | escape (c : Char) {s t : List Char} (h : Spells s t) : Spells (unescape c :: s) ('\\' :: c :: t)

/-- How a text is written as a string of an action: spelled between double quotes, or as it is
between backticks if it holds none. -/
inductive Written (s : List Char) : List Char → Prop where
  | quoted {t : List Char} (h : Spells s t) : Written s ('"' :: (t ++ ['"']))
  | raw (h : '\x60' ∉ s) : Written s ('\x60' :: (s ++ ['\x60']))

/-- What stands behind an opening quote that is never closed: no double quote ends a spelling, or
there is no backtick. -/
inductive Unclosed (rest : List Char) : Char → Prop where
  | quoted (h : ∀ s t more, Spells s t → rest ≠ t ++ '"' :: more) : Unclosed rest '"'
  | raw (h : '\x60' ∉ rest) : Unclosed rest '\x60'

section Reading

variable {s t w cs rest : List Char}

theorem readQuoted?_plain {c : Char} (hquote : c ≠ '"') (hslash : c ≠ '\\') (cs : List Char) :
    readQuoted? (c :: cs) = (readQuoted? cs).map fun r => (c :: r.1, r.2) := by
  rw [readQuoted?]
  · exact hquote
  · exact fun _ _ h => absurd h hslash
  · exact fun h => absurd h hslash

theorem readQuoted?_of_spells (h : Spells s t) (rest : List Char) :
    readQuoted? (t ++ '"' :: rest) = some (s, rest) := by
  induction h with
  | nil => rfl
  | plain hquote hslash _ ih => rw [List.cons_append, readQuoted?_plain hquote hslash, ih]; rfl
  | escape c _ ih =>
    show (readQuoted? (_ ++ '"' :: rest)).map _ = _
    rw [ih]
    rfl

/-- Between double quotes a string is read up to the first quote that is not behind a backslash. -/
theorem readQuoted?_iff :
    readQuoted? cs = some (s, rest) ↔ ∃ t, Spells s t ∧ cs = t ++ '"' :: rest := by
  constructor
  · intro h
    induction cs using readQuoted?.induct generalizing s with
    | case1 => cases h
    | case2 cs =>
      cases h
      exact ⟨[], .nil, rfl⟩
    | case3 c cs ih =>
      obtain ⟨⟨more, behind⟩, hmore, he⟩ := Option.map_eq_some_iff.1 h
      cases he
      obtain ⟨t, ht, rfl⟩ := ih hmore
      exact ⟨_, .escape c ht, rfl⟩
    | case4 => cases h
    | case5 c cs hquote hslash hlast ih =>
      have hc : c ≠ '\\' := by
        rintro rfl
        cases cs with
        | nil => exact hlast rfl rfl
        | cons d cs => exact hslash d cs rfl rfl
      rw [readQuoted?_plain hquote hc] at h
      obtain ⟨⟨more, behind⟩, hmore, he⟩ := Option.map_eq_some_iff.1 h
      cases he
      obtain ⟨t, ht, rfl⟩ := ih hmore
      exact ⟨_, .plain hquote hc ht, rfl⟩
  · rintro ⟨t, ht, rfl⟩
    exact readQuoted?_of_spells ht rest

theorem readRaw?_eq (cs : List Char) : readRaw? cs = splitAtFirst? (· == '\x60') cs := by
  induction cs with
  | nil => rfl
  | cons c cs ih =>
    by_cases hc : c = '\x60'
    · subst hc
      rfl
    · rw [readRaw?, splitAtFirst?, if_neg (by simpa using hc), ih]
      exact hc

/-- Between backticks a string is read up to the first backtick. -/
theorem readRaw?_iff : readRaw? cs = some (s, rest) ↔ '\x60' ∉ s ∧ cs = s ++ '\x60' :: rest := by
  rw [readRaw?_eq]
  constructor
  · intro h
    obtain ⟨cut, hcut, rfl⟩ := eq_of_splitAtFirst? h
    obtain rfl := beq_iff_eq.1 hcut
    exact ⟨fun hmem => absurd (front_of_splitAtFirst? h _ hmem) (by simp), rfl⟩
  · rintro ⟨hs, rfl⟩
    refine splitAtFirst?_append_cons (fun c hc => ?_) rfl rest
    rw [beq_eq_false_iff_ne]
    rintro rfl
    exact hs hc

end Reading

/-! ### Tokens one by one -/

/-- What stands at the front of a text, a token or a blank, and the rest. -/
def lexeme? : List Char → Option (List Token × List Char)
  | [] => none
  | c :: cs =>
    if isBlank c then some ([], cs)
    else if c = '|' then some ([.bar], cs)
    else if c = '(' then some ([.opened], cs)
    else if c = ')' then some ([.closed], cs)
    else if c = ',' then some ([.comma], cs)
    else if c = ':' then
      match cs with
      | '=' :: rest => some ([.declare], rest)
      | _ => none
    else if c = '"' then (readQuoted? cs).map fun r => ([.str r.1], r.2)
    else if c = '\x60' then (readRaw? cs).map fun r => ([.str r.1], r.2)
    else if startsNumber (c :: cs) then
      some ([.num (c :: cs.takeWhile isNumChar)], cs.dropWhile isNumChar)
    else if isWordChar c then
      some ([.word (c :: cs.takeWhile isWordChar)], cs.dropWhile isWordChar)
    else none

/-- The ways in which a text starts with a lexeme; only a run of further characters depends on what
stands behind it. -/
inductive Lexeme : List Char → List Token → List Char → Prop where
  | mark {c : Char} {ts : List Token} (hts : ∀ t ∈ ts, t ∈ [.bar, .opened, .closed, .comma])
    (h : ∀ more, lexeme? (c :: more) = some (ts, more)) (cs : List Char) : Lexeme (c :: cs) ts cs
  | declare (rest : List Char) : Lexeme (':' :: '=' :: rest) [.declare] rest
  | quoted {cs s rest : List Char} (h : readQuoted? cs = some (s, rest)) :
    Lexeme ('"' :: cs) [.str s] rest
  | raw {cs s rest : List Char} (h : readRaw? cs = some (s, rest)) :
    Lexeme ('\x60' :: cs) [.str s] rest
  | num {c : Char} {cs : List Char} (hstart : startsNumber (c :: cs) = true)
    (h : ∀ more, startsNumber (c :: more) = true → lexeme? (c :: more)
      = some ([.num (c :: more.takeWhile isNumChar)], more.dropWhile isNumChar)) :
    Lexeme (c :: cs) [.num (c :: cs.takeWhile isNumChar)] (cs.dropWhile isNumChar)
  | word {c : Char} {cs : List Char} (hstart : startsNumber (c :: cs) = false)
    (h : ∀ more, startsNumber (c :: more) = false → lexeme? (c :: more)
      = some ([.word (c :: more.takeWhile isWordChar)], more.dropWhile isWordChar)) :
    Lexeme (c :: cs) [.word (c :: cs.takeWhile isWordChar)] (cs.dropWhile isWordChar)

section Lexemes

variable {c : Char} {cs rest next : List Char} {ts before : List Token}

theorem scanFrom?_succ (fuel : Nat) (c : Char) (cs : List Char) :
    scanFrom? (fuel + 1) (c :: cs)
      = (lexeme? (c :: cs)).bind fun r => (scanFrom? fuel r.2).map (r.1 ++ ·) := by
  have hblank : ∀ o : Option (List Token), o = o.map ([] ++ ·) := by
    intro o
    cases o <;> rfl
  have hstr : ∀ (o : Option (List Char × List Char)) (f : List Char → Option (List Token)),
      (o.bind fun r => (f r.2).map (.str r.1 :: ·))
        = (o.map fun r => ([Token.str r.1], r.2)).bind fun r => (f r.2).map (r.1 ++ ·) := by
    intro o f
    cases o <;> rfl
  have hif : ∀ {p : Prop} [Decidable p] {a b : Option (List Token)}
      {a' b' : Option (List Token × List Char)}
      {f : List Token × List Char → Option (List Token)}, a = a'.bind f → b = b'.bind f →
        (if p then a else b) = (if p then a' else b').bind f := by
    intro p _ a b a' b' f ha hb
    split
    · exact ha
    · exact hb
  unfold lexeme?
  conv_lhs => unfold scanFrom?
  dsimp only
  refine hif (hblank _) (hif rfl (hif rfl (hif rfl (hif rfl (hif ?_
    (hif (hstr _ (scanFrom? fuel)) (hif (hstr _ (scanFrom? fuel)) (hif rfl (hif rfl rfl)))))))))
  split
  · rfl
  · next hne => grind

/-- A text starts with a lexeme in one of these ways. -/
theorem lexeme_of_lexeme? (h : lexeme? cs = some (ts, rest)) : Lexeme cs ts rest := by
  cases cs with
  | nil => cases h
  | cons c cs =>
    unfold lexeme? at h
    dsimp only at h
    by_cases hblank : isBlank c = true
    · rw [if_pos hblank] at h
      cases h
      exact .mark (by decide) (fun more => if_pos hblank) _
    by_cases hbar : c = '|'
    · subst hbar
      cases h
      exact .mark (by decide) (fun more => rfl) _
    by_cases hopened : c = '('
    · subst hopened
      cases h
      exact .mark (by decide) (fun more => rfl) _
    by_cases hclosed : c = ')'
    · subst hclosed
      cases h
      exact .mark (by decide) (fun more => rfl) _
    by_cases hcomma : c = ','
    · subst hcomma
      cases h
      exact .mark (by decide) (fun more => rfl) _
    rw [if_neg hblank, if_neg hbar, if_neg hopened, if_neg hclosed, if_neg hcomma] at h
    by_cases hcolon : c = ':'
    · rw [if_pos hcolon] at h
      split at h
      · cases h
        rw [hcolon]
        exact .declare _
      · cases h
    by_cases hquote : c = '"'
    · rw [if_neg hcolon, if_pos hquote] at h
      obtain ⟨⟨s, behind⟩, hs, he⟩ := Option.map_eq_some_iff.1 h
      cases he
      rw [hquote]
      exact .quoted hs
    by_cases htick : c = '\x60'
    · rw [if_neg hcolon, if_neg hquote, if_pos htick] at h
      obtain ⟨⟨s, behind⟩, hs, he⟩ := Option.map_eq_some_iff.1 h
      cases he
      rw [htick]
      exact .raw hs
    -- what is left is decided by the start of a numeral, for any text behind the character
    have hrun : ∀ more, lexeme? (c :: more)
        = if startsNumber (c :: more) then
            some ([.num (c :: more.takeWhile isNumChar)], more.dropWhile isNumChar)
          else if isWordChar c then
            some ([.word (c :: more.takeWhile isWordChar)], more.dropWhile isWordChar)
          else none := by
      intro more
      unfold lexeme?
      dsimp only
      rw [if_neg hblank, if_neg hbar, if_neg hopened, if_neg hclosed, if_neg hcomma,
        if_neg hcolon, if_neg hquote, if_neg htick]
    rw [if_neg hcolon, if_neg hquote, if_neg htick] at h
    split at h
    · next hnum =>
      cases h
      exact .num hnum fun more hmore => (hrun more).trans (if_pos hmore)
    · next hnum =>
      split at h
      · next hword =>
        cases h
        refine .word (Bool.eq_false_iff.2 hnum) fun more hmore => ?_
        rw [hrun more, hmore, if_neg Bool.false_ne_true, if_pos hword]
      · cases h

/-- A lexeme is not empty. -/
theorem length_lt_of_lexeme? (h : lexeme? cs = some (ts, rest)) : rest.length < cs.length := by
  have hdrop : ∀ (p : Char → Bool) (c : Char) (cs : List Char),
      (cs.dropWhile p).length < (c :: cs).length :=
    fun p c cs => Nat.lt_succ_of_le (List.dropWhile_suffix p).length_le
  cases lexeme_of_lexeme? h with
  | mark _ _ cs => exact Nat.lt_succ_self _
  | declare rest =>
    simp only [List.length_cons]
    omega
  | quoted hs =>
    obtain ⟨t, -, rfl⟩ := readQuoted?_iff.1 hs
    simp
    omega
  | raw hs =>
    obtain ⟨-, rfl⟩ := readRaw?_iff.1 hs
    simp
    omega
  | num _ _ => exact hdrop _ _ _
  | word _ _ => exact hdrop _ _ _

/-- What no word and no numeral goes on with. -/
def Separate (next : List Char) : Prop :=
  ∀ c ∈ next.head?, isWordChar c = false ∧ isNumChar c = false

theorem startsNumber_append (hnext : Separate next) (c : Char) (cs : List Char) :
    startsNumber (c :: (cs ++ next)) = startsNumber (c :: cs) := by
  by_cases hc : c = '-'
  · subst hc
    cases cs with
    | cons d cs => rfl
    | nil =>
      cases next with
      | nil => rfl
      | cons d next => exact (Bool.or_eq_false_iff.1 (hnext d rfl).2).1
  · simp [startsNumber, hc]

/-- Lexemes are read up to what is separate as if nothing stood behind it. -/
theorem lexeme?_append (hnext : Separate next) (h : lexeme? cs = some (ts, rest)) :
    lexeme? (cs ++ next) = some (ts, rest ++ next) := by
  cases lexeme_of_lexeme? h with
  | mark _ hmark cs => exact hmark _
  | declare rest => rfl
  | quoted hs =>
    obtain ⟨t, ht, rfl⟩ := readQuoted?_iff.1 hs
    show (readQuoted? (t ++ '"' :: rest ++ next)).map _ = _
    rw [List.append_assoc, List.cons_append, readQuoted?_of_spells ht]
    rfl
  | raw hs =>
    obtain ⟨htick, rfl⟩ := readRaw?_iff.1 hs
    show (readRaw? (_ ++ '\x60' :: rest ++ next)).map _ = _
    rw [List.append_assoc, List.cons_append, readRaw?_iff.2 ⟨htick, rfl⟩]
    rfl
  | @num c cs hstart hnum =>
    have hchar : ∀ c ∈ next.head?, isNumChar c = false := fun c hc => (hnext c hc).2
    rw [List.cons_append, hnum _ ((startsNumber_append hnext c cs).trans hstart),
      takeWhile_append_of_head? hchar, dropWhile_append_of_head? hchar]
  | @word c cs hstart hword =>
    have hchar : ∀ c ∈ next.head?, isWordChar c = false := fun c hc => (hnext c hc).1
    rw [List.cons_append, hword _ ((startsNumber_append hnext c cs).trans hstart),
      takeWhile_append_of_head? hchar, dropWhile_append_of_head? hchar]

/-- Enough fuel is enough. -/
theorem scanFrom?_eq {fuel : Nat} (h : cs.length ≤ fuel) : scanFrom? fuel cs = scan? cs := by
  have hall : ∀ (fuel fuel' : Nat) (cs : List Char), cs.length ≤ fuel → cs.length ≤ fuel' →
      scanFrom? fuel cs = scanFrom? fuel' cs := by
    intro fuel
    induction fuel with
    | zero =>
      intro fuel' cs h h'
      rw [List.length_eq_zero_iff.1 (Nat.le_zero.1 h)]
      cases fuel' <;> rfl
    | succ fuel ih =>
      intro fuel' cs h h'
      cases cs with
      | nil => cases fuel' <;> rfl
      | cons c cs =>
        obtain ⟨fuel', rfl⟩ := Nat.exists_eq_succ_of_ne_zero (Nat.ne_zero_of_lt h')
        rw [scanFrom?_succ, scanFrom?_succ]
        refine Option.bind_congr fun r hr => ?_
        have hlt := length_lt_of_lexeme? hr
        rw [ih fuel' r.2 (by omega) (by omega)]
  exact hall fuel cs.length cs h (Nat.le_refl _)

/-- The tokens of a text are the first one and those behind it. -/
theorem scan?_cons (c : Char) (cs : List Char) :
    scan? (c :: cs) = (lexeme? (c :: cs)).bind fun r => (scan? r.2).map (r.1 ++ ·) := by
  rw [scan?, List.length_cons, scanFrom?_succ]
  refine Option.bind_congr fun r hr => ?_
  have hlt : r.2.length < (c :: cs).length := length_lt_of_lexeme? hr
  rw [scanFrom?_eq (Nat.lt_succ_iff.1 hlt)]

/-- What holds of no tokens, and with each lexeme in front, holds of all that is scanned. -/
theorem scan?_induct {motive : List Char → List Token → Prop} (nil : motive [] [])
    (cons : ∀ {cs rest ts more}, lexeme? cs = some (ts, rest) → motive rest more →
      motive cs (ts ++ more)) {cs : List Char} {tokens : List Token}
    (h : scan? cs = some tokens) : motive cs tokens := by
  induction hlength : cs.length using Nat.strongRecOn generalizing cs tokens with
  | ind n ih =>
    cases cs with
    | nil =>
      cases h
      exact nil
    | cons c cs =>
      rw [scan?_cons] at h
      obtain ⟨⟨ts, rest⟩, hlexeme, hmore⟩ := Option.bind_eq_some_iff.1 h
      obtain ⟨more, hrest, rfl⟩ := Option.map_eq_some_iff.1 hmore
      exact cons hlexeme (ih rest.length (hlength ▸ length_lt_of_lexeme? hlexeme) hrest rfl)

theorem scan?_of_lexeme? (h : lexeme? cs = some (ts, rest)) :
    scan? cs = (scan? rest).map (ts ++ ·) := by
  cases cs with
  | nil => cases h
  | cons c cs => rw [scan?_cons, h, Option.bind_some]

/-- Tokens in front of a quote are those of the text in front of it. -/
theorem scan?_append (hnext : Separate next) (h : scan? cs = some before) :
    scan? (cs ++ next) = (scan? next).map (before ++ ·) := by
  refine scan?_induct (motive := fun cs before => scan? (cs ++ next)
    = (scan? next).map (before ++ ·)) ?_ (fun {cs rest ts more} hlexeme ih => ?_) h
  · cases hnone : scan? next <;> simp [hnone]
  · rw [scan?_of_lexeme? (lexeme?_append hnext hlexeme), ih, Option.map_map]
    exact congrArg (Option.map · _) (funext fun behind => (List.append_assoc _ _ _).symm)

/-- Whether no numeral among tokens holds a quote. -/
def PlainNumerals (tokens : List Token) : Prop :=
  ∀ n, .num n ∈ tokens → ∀ c ∈ n, c ∉ quotes

theorem not_mem_quotes_of_isNumChar {c : Char} (h : isNumChar c = true) : c ∉ quotes := by
  intro hmem
  have hall : quotes.all (fun q => !isNumChar q) = true := by decide
  have hnot := List.all_eq_true.1 hall c hmem
  rw [h] at hnot
  cases hnot

/-- The numerals of a text hold no quotes. -/
theorem plainNumerals_of_lexeme? (h : lexeme? cs = some (ts, rest)) : PlainNumerals ts := by
  intro n hn c hc
  cases lexeme_of_lexeme? h with
  | mark hts _ _ => simpa using hts _ hn
  | declare _ => cases List.mem_singleton.1 hn
  | quoted _ => cases List.mem_singleton.1 hn
  | raw _ => cases List.mem_singleton.1 hn
  | word _ _ => cases List.mem_singleton.1 hn
  | @num d cs hstart _ =>
    cases List.mem_singleton.1 hn
    rcases List.mem_cons.1 hc with rfl | hc
    · by_cases hdash : c = '-'
      · rw [hdash]
        decide
      · have hdigit : c.isDigit = true := by simpa [startsNumber, hdash] using hstart
        exact not_mem_quotes_of_isNumChar (Bool.or_eq_true_iff.2 (.inl hdigit))
    · exact not_mem_quotes_of_isNumChar (List.all_eq_true.1 List.all_takeWhile c hc)

theorem plainNumerals_of_scan? {tokens : List Token} (h : scan? cs = some tokens) :
    PlainNumerals tokens := by
  refine scan?_induct (motive := fun _ tokens => PlainNumerals tokens)
    (fun n hn => absurd hn List.not_mem_nil) (fun hlexeme ih n hn => ?_) h
  rcases List.mem_append.1 hn with hn | hn
  · exact plainNumerals_of_lexeme? hlexeme n hn
  · exact ih n hn

/-- Blanks in front of a text are no tokens. -/
theorem scan?_trimStart (cs : List Char) : scan? (trimStart cs) = scan? cs := by
  induction cs with
  | nil => rfl
  | cons c cs ih =>
    by_cases hc : isBlank c = true
    · have hblank : lexeme? (c :: cs) = some ([], cs) := if_pos hc
      rw [trimStart, List.dropWhile_cons_of_pos hc, scan?_cons, hblank]
      show scan? (trimStart cs) = (scan? cs).map ([] ++ ·)
      rw [ih]
      cases scan? cs <;> rfl
    · rw [trimStart, List.dropWhile_cons_of_neg hc]

end Lexemes

/-! ### Written texts -/

/-- The quotes that strings in actions are written with. -/
def stringQuotes : List Char := ['"', '\x60']

section Strings

variable {q : Char} {s w cs rest : List Char} {before : List Token}

/-- No string quote is a blank, a trim marker, or part of a word, a numeral or a comment. -/
theorem apart_of_stringQuote (hq : q ∈ stringQuotes) :
    isBlank q = false ∧ q ≠ '-' ∧ q ≠ '/' ∧ isWordChar q = false ∧ isNumChar q = false := by
  have hall : stringQuotes.all (fun q => !isBlank q && q != '-' && q != '/' && !isWordChar q
      && !isNumChar q) = true := by decide
  simpa [and_assoc] using List.all_eq_true.1 hall q hq

theorem separate_of_stringQuote (hq : q ∈ stringQuotes) (cs : List Char) : Separate (q :: cs) := by
  intro c hc
  obtain rfl := Option.some.inj hc
  exact (apart_of_stringQuote hq).2.2.2

/-- A written text starts and ends with a quote. -/
theorem Written.exists_quote (h : Written s w) : ∃ q ∈ stringQuotes, ∃ t, w = q :: (t ++ [q]) := by
  cases h with
  | quoted h => exact ⟨'"', by decide, _, rfl⟩
  | raw h => exact ⟨'\x60', by decide, _, rfl⟩

/-- A written text is read as one token. -/
theorem scan?_written (h : Written s w) (rest : List Char) :
    scan? (w ++ rest) = (scan? rest).map (.str s :: ·) := by
  have hlexeme : lexeme? (w ++ rest) = some ([.str s], rest) := by
    cases h with
    | quoted h =>
      show (readQuoted? (_ ++ ['"'] ++ rest)).map _ = _
      rw [List.append_assoc, List.singleton_append, readQuoted?_of_spells h]
      rfl
    | raw h =>
      show (readRaw? (_ ++ ['\x60'] ++ rest)).map _ = _
      rw [List.append_assoc, List.singleton_append, readRaw?_iff.2 ⟨h, rfl⟩]
      rfl
  obtain ⟨q, -, t, rfl⟩ := h.exists_quote
  rw [List.cons_append] at hlexeme ⊢
  rw [scan?_cons, hlexeme]
  rfl

/-- **A written text is one token**, between the tokens in front of it and those behind it. -/
theorem scan?_append_written (hbefore : scan? cs = some before) (h : Written s w)
    (rest : List Char) :
    scan? (cs ++ (w ++ rest)) = (scan? rest).map fun after => before ++ .str s :: after := by
  have hseparate : Separate (w ++ rest) := by
    obtain ⟨q, hq, t, rfl⟩ := h.exists_quote
    exact separate_of_stringQuote hq _
  rw [scan?_append hseparate hbefore, scan?_written h, Option.map_map]
  rfl

/-- A quote that is not closed is not closed in any front part. -/
theorem Unclosed.of_append {more : List Char} (h : Unclosed (rest ++ more) q) :
    Unclosed rest q := by
  cases h with
  | quoted h =>
    refine .quoted fun s t behind ht he => h s t (behind ++ more) ht ?_
    rw [he, List.append_assoc]
    rfl
  | raw h => exact .raw fun hmem => h (List.mem_append_left _ hmem)

theorem Unclosed.mem_stringQuotes (h : Unclosed rest q) : q ∈ stringQuotes := by
  cases h <;> decide

/-- A text with a string that is not closed has no tokens. -/
theorem scan?_unclosed (hbefore : scan? cs = some before) (h : Unclosed rest q) :
    scan? (cs ++ q :: rest) = none := by
  have hlexeme : lexeme? (q :: rest) = none := by
    cases h with
    | quoted h =>
      refine congrArg (Option.map _) (Option.eq_none_iff_forall_ne_some.2 fun r hr => ?_)
      obtain ⟨t, ht, he⟩ := readQuoted?_iff.1 hr
      exact h r.1 t r.2 ht he
    | raw h =>
      refine congrArg (Option.map _) (Option.eq_none_iff_forall_ne_some.2 fun r hr => h ?_)
      rw [(readRaw?_iff.1 hr).2]
      exact List.mem_append_right _ List.mem_cons_self
  rw [scan?_append (separate_of_stringQuote h.mem_stringQuotes rest) hbefore, scan?_cons, hlexeme]
  rfl

end Strings

/-! ### Tags with strings -/

section Edges

variable {c : Char}

/-- What is no dash and no blank keeps a trim marker in front of it apart. -/
theorem leadingMarker_append (hdash : c ≠ '-') (hblank : isBlank c = false) (opening : List Char)
    (rest : List Char) : leadingMarker (opening ++ c :: rest)
      = ((leadingMarker opening).1, (leadingMarker opening).2 ++ c :: rest) := by
  cases opening with
  | nil =>
    unfold leadingMarker
    split
    · next he => exact absurd (List.cons.inj he).1 hdash
    · rfl
  | cons d opening =>
    by_cases hd : d = '-'
    · subst hd
      cases opening with
      | nil =>
        show (if isBlank c then _ else _) = _
        rw [hblank]
        rfl
      | cons e opening =>
        show (if isBlank e then _ else _) = _
        rw [leadingMarker]
        split <;> rfl
    · have hhead : ∀ more, (d :: more).head? ≠ some '-' := fun more he => hd (Option.some.inj he)
      rw [List.cons_append, leadingMarker_of_ne (hhead _), leadingMarker_of_ne (hhead _)]
      rfl

theorem trailingMarker_append (hdash : c ≠ '-') (hblank : isBlank c = false)
    (front closing : List Char) : trailingMarker (front ++ c :: closing)
      = ((trailingMarker closing).1, front ++ c :: (trailingMarker closing).2) := by
  have hreverse : (front ++ c :: closing).reverse = closing.reverse ++ c :: front.reverse := by
    simp
  rw [trailingMarker, hreverse, leadingMarker_append hdash hblank]
  simp [trailingMarker]

theorem leadingMarker_suffix (cs : List Char) : (leadingMarker cs).2 <:+ cs := by
  unfold leadingMarker
  split
  · split
    · exact List.suffix_cons _ _
    · exact List.suffix_rfl
  · exact List.suffix_rfl

/-- What is left of a text in front of a trim marker and blanks is its front. -/
theorem trimEnd_trailingMarker_prefix (cs : List Char) :
    trimEnd (trailingMarker cs).2 <+: cs := by
  have hmarker : (trailingMarker cs).2 <+: cs := by
    rw [← List.reverse_suffix]
    show (leadingMarker cs.reverse).2.reverse.reverse <:+ cs.reverse
    rw [List.reverse_reverse]
    exact leadingMarker_suffix cs.reverse
  refine List.IsPrefix.trans ?_ hmarker
  rw [← List.reverse_suffix, trimEnd, List.reverse_reverse]
  exact List.dropWhile_suffix _

end Edges

namespace Scope

variable {σ : Scope} {q : Char} {s w opening closing rest : List Char} {before : List Token}

/-- A quote behind tokens starts no comment. -/
theorem comment?_append (hq : q ∈ stringQuotes) {cs : List Char} (hcs : scan? cs = some before)
    (rest : List Char) : comment? (cs ++ q :: rest) = none := by
  rw [Option.eq_none_iff_forall_ne_some]
  intro inner h
  obtain ⟨body, hstart, -⟩ := Option.bind_eq_some_iff.1 h
  have he : cs ++ q :: rest = '/' :: '*' :: body := dropStart?_eq_some hstart
  cases cs with
  | nil => exact (apart_of_stringQuote hq).2.2.1 (List.cons.inj he).1
  | cons c cs =>
    have hlexeme : lexeme? ('/' :: cs) = none := rfl
    rw [(List.cons.inj he).1, scan?_cons, hlexeme] at hcs
    cases hcs

/-- The body of a tag with a quote, without its trim markers and blanks. -/
theorem tag?_of_quote (hq : q ∈ stringQuotes)
    (hbefore : scan? (leadingMarker opening).2 = some before) (rest : List Char) :
    σ.tag? ('{' :: '{' :: (opening ++ q :: rest ++ ['}', '}']))
      = ((scan? (trimStart (leadingMarker opening).2
          ++ q :: trimEnd (trailingMarker rest).2)).bind σ.body?).map fun r =>
            (r.1.text (leadingMarker opening).1 (trailingMarker rest).1, r.2) := by
  obtain ⟨hblank, hdash, -⟩ := apart_of_stringQuote hq
  have hopen : dropStart? ['{', '{'] ('{' :: '{' :: (opening ++ q :: rest ++ ['}', '}']))
      = some (opening ++ q :: rest ++ ['}', '}']) := Text.dropStart?_append ['{', '{'] _
  have htrim : trim ((leadingMarker opening).2 ++ q :: (trailingMarker rest).2)
      = trimStart (leadingMarker opening).2 ++ q :: trimEnd (trailingMarker rest).2 := by
    rw [trim, trimStart_append_cons hblank, trimEnd_append_cons hblank]
  rw [Scope.tag?, hopen, Option.bind_some, dropTail?_append, Option.bind_some]
  dsimp only
  rw [leadingMarker_append hdash hblank, trailingMarker_append hdash hblank]
  dsimp only
  rw [htrim, comment?_append hq ((scan?_trimStart _).trans hbefore)]
  dsimp only
  rw [Option.map_bind]
  refine Option.bind_congr fun tokens _ => Option.map_congr fun r _ => ?_
  obtain ⟨body, s'⟩ := r
  cases body <;> rfl

/-- A tag around a written text. -/
def tagAround (opening w closing : List Char) : List Char :=
  '{' :: '{' :: (opening ++ (w ++ closing) ++ ['}', '}'])

/-- The tokens behind a written text. -/
def tokensBehind? (closing : List Char) : Option (List Token) :=
  scan? (trimEnd (trailingMarker closing).2)

/-- **A tag around a written text** is made of the tokens in front of the text, the text as a string
and the tokens behind it. -/
theorem tag?_written (hbefore : scan? (leadingMarker opening).2 = some before) (h : Written s w)
    (closing : List Char) : σ.tag? (tagAround opening w closing)
      = ((tokensBehind? closing).bind fun after => σ.body? (before ++ .str s :: after)).map fun r =>
          (r.1.text (leadingMarker opening).1 (trailingMarker closing).1, r.2) := by
  have hstart : scan? (trimStart (leadingMarker opening).2) = some before :=
    (scan?_trimStart _).trans hbefore
  have hscan := scan?_append_written hstart h (trimEnd (trailingMarker closing).2)
  obtain ⟨q, hq, t, rfl⟩ := h.exists_quote
  obtain ⟨hblank, hdash, -⟩ := apart_of_stringQuote hq
  have hsplit : ∀ rest, q :: (t ++ [q]) ++ rest = q :: (t ++ q :: rest) := by simp
  rw [tagAround, hsplit, tag?_of_quote hq hbefore, trailingMarker_append hdash hblank]
  dsimp only
  rw [trimEnd_append_cons hblank, ← hsplit, hscan, Option.bind_map]
  rfl

/-- A tag with a string that is not closed is left alone. -/
theorem tag?_unclosed (hbefore : scan? (leadingMarker opening).2 = some before)
    (h : Unclosed rest q) : σ.tag? ('{' :: '{' :: (opening ++ q :: rest ++ ['}', '}'])) = none := by
  -- what is cut off at the end of the string closes nothing
  obtain ⟨more, hmore⟩ := trimEnd_trailingMarker_prefix rest
  have hopen : Unclosed (trimEnd (trailingMarker rest).2) q := by
    rw [← hmore] at h
    exact h.of_append
  rw [tag?_of_quote h.mem_stringQuotes hbefore,
    scan?_unclosed ((scan?_trimStart _).trans hbefore) hopen]
  rfl

end Scope

end Runbook.Template.Action
