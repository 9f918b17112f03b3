import Runbook.Proofs.Condition.Places
import Runbook.Proofs.Condition.Words
/-!
# Where the scanner stands

The scanner of the expression language keeps to what its characters stand in: it is in code in front
of every token, and each token leaves it where the rules of the language say.

* `Plain` — the characters of code that change nothing;
* `readText_places`, `readVerbatim_places`, `dropComment_places` — texts and comments end where
  their places do;
* `Token.behind` — what stands behind a token;
* `Fronts.places` — all of this for the front of a text;
* `words_inCode` — so the words of an expression stand in code.

What is left of the places is stated as an end of them.
-/

namespace Runbook.Condition

open Runbook.Text

variable {holes : List Nat} {cs rest : List Char}

/-! ### Characters of code -/

/-- The characters that may start or end a text, a comment or an expression in a text. -/
def turning : List Char := ['/', '"', '\'', '\x60', '\x7b', '\x7d']

/-- The characters of code that change nothing where they stand. -/
def Plain (c : Char) : Prop :=
  c ∉ turning

/-- A class of characters without those that turn has plain characters only. -/
theorem plain_of_class {q : Char → Bool} (hq : turning.any q = false) {c : Char}
    (h : q c = true) : Plain c := by
  intro hc
  have hany : turning.any q = true := List.any_eq_true.2 ⟨c, hc, h⟩
  rw [hq] at hany
  cases hany

theorem places_code_cons (holes : List Nat) {c : Char}
    (hcomment : c = '/' → cs.head? ≠ some '/' ∧ cs.head? ≠ some '*') :
    places .code holes (c :: cs)
      = ⟨c, .code, holes.length⟩ :: places (enter holes c).1 (enter holes c).2 cs := by
  refine places.eq_4 holes c cs (fun rest hc hcs => ?_) fun rest hc hcs => ?_
  · exact (hcomment hc).1 (hcs ▸ rfl)
  · exact (hcomment hc).2 (hcs ▸ rfl)

theorem enter_of_plain (holes : List Nat) {c : Char} (hc : Plain c) :
    enter holes c = (.code, holes) := by
  simp only [Plain, turning, List.mem_cons, List.not_mem_nil, or_false, not_or] at hc
  obtain ⟨-, hdouble, hsingle, hverbatim, hopen, hclose⟩ := hc
  unfold enter
  rw [if_neg (not_or.2 ⟨hdouble, hsingle⟩), if_neg hverbatim, if_neg hopen, if_neg hclose]

/-- Behind a plain character it goes on as in front of it. -/
theorem places_of_plain (holes : List Nat) {c : Char} (hc : Plain c) (cs : List Char) :
    places .code holes (c :: cs) = ⟨c, .code, holes.length⟩ :: places .code holes cs := by
  have hslash : c ≠ '/' := fun h => hc (h ▸ List.mem_cons_self)
  rw [places_code_cons holes fun h => absurd h hslash, enter_of_plain holes hc]

theorem suffix_of_plain {c : Char} (hc : Plain c)
    (h : places .code holes rest <:+ places .code holes cs) :
    places .code holes rest <:+ places .code holes (c :: cs) := by
  rw [places_of_plain holes hc]
  exact h.trans (List.suffix_cons _ _)

theorem plain_of_digitValue {base d : Nat} {c : Char}
    (h : Decimal.digitValue? base c = some d) : Plain c :=
  plain_of_class (q := fun c => (Decimal.digitValue? base c).isSome) rfl (by rw [h]; rfl)

/-! ### Texts -/

/-- What is left of a text from a state of its reader on, by the rules of the language: behind a
backslash a character is skipped. -/
def textPlaces (quote : Char) (holes : List Nat) : TextState → List Char → List Placed
  | .escaped, cs => places (.text quote) holes cs.tail
  | _, cs => places (.text quote) holes cs

theorem places_text_cons {quote : Char} (holes : List Nat) {c : Char} (hc : c ≠ '\\')
    (cs : List Char) :
    places (.text quote) holes (c :: cs)
      = ⟨c, .text quote, holes.length⟩
          :: places (if c = quote then .code else .text quote) holes cs :=
  places.eq_10 holes quote c cs fun _ _ h => absurd h hc

theorem suffix_of_text {quote c : Char} {xs : List Placed} (hquote : c ≠ quote) (hc : c ≠ '\\')
    (h : xs <:+ places (.text quote) holes cs) :
    xs <:+ places (.text quote) holes (c :: cs) := by
  rw [places_text_cons holes hc, if_neg hquote]
  exact h.trans (List.suffix_cons _ _)

/-- A reader that puts a character in front of a text has read that text. -/
theorem exists_of_pushed {c : Char} {text : List Char} {r : Option (List Char × List Char)}
    (h : (r.map fun (text, rest) => (c :: text, rest)) = some (text, rest)) :
    ∃ text, r = some (text, rest) := by
  obtain ⟨⟨text, after⟩, hr, heq⟩ := Option.map_eq_some_iff.1 h
  exact ⟨text, (Prod.mk.inj heq).2 ▸ hr⟩

/-- **A text ends where its places do.** -/
theorem readText_places {quote : Char} (hquote : quote = '"' ∨ quote = '\'')
    {state : TextState} {text : List Char}
    (h : readText quote state cs = some (text, rest)) :
    places .code holes rest <:+ textPlaces quote holes state cs := by
  have hslash : quote ≠ '\\' := by
    rcases hquote with rfl | rfl <;> decide
  have hnewline : '\n' ≠ quote := by
    rcases hquote with rfl | rfl <;> decide
  have hturns : quote ∈ turning := by
    rcases hquote with rfl | rfl <;> decide
  have hdigit : ∀ {c : Char} {d : Nat}, Decimal.digitValue? 16 c = some d →
      c ≠ quote ∧ c ≠ '\\' := by
    intro c d hd
    refine ⟨fun heq => plain_of_digitValue hd (heq ▸ hturns), ?_⟩
    rintro rfl
    cases hd
  fun_induction readText quote state cs generalizing text with
  | case1 => cases h
  | case2 left value c cs ihplain ih =>
    obtain ⟨d, hd, h⟩ := Option.bind_eq_some_iff.1 h
    obtain ⟨hc, hbackslash⟩ := hdigit hd
    refine suffix_of_text hc hbackslash ?_
    dsimp only at h
    split at h
    · obtain ⟨e, -, h⟩ := Option.bind_eq_some_iff.1 h
      obtain ⟨text, h⟩ := exists_of_pushed h
      exact ihplain h
    · exact ih _ h
  | case3 c cs e _ ih =>
    obtain ⟨text, h⟩ := exists_of_pushed h
    exact ih h
  | case4 c cs left _ _ ih => exact ih h
  | case5 cs _ _ ih =>
    obtain ⟨text, h⟩ := exists_of_pushed h
    exact ih h
  | case6 c cs _ _ _ _ ih => exact ih h
  | case7 c cs _ _ _ _ hreturn ih =>
    -- the backslash goes on to the newline behind a carriage return
    cases cs with
    | nil => cases h
    | cons d cs =>
      obtain rfl : d = '\n' := Option.some.inj hreturn.2
      exact suffix_of_text hnewline (by decide) (ih h)
  | case8 => cases h
  | case9 =>
    cases h
    exact List.nil_suffix
  | case10 rest' ih =>
    obtain ⟨text, h⟩ := exists_of_pushed h
    have henter : enter holes quote = (.text quote, holes) := if_pos hquote
    have hcomment : quote ≠ '/' := by
      rcases hquote with rfl | rfl <;> decide
    show _ <:+ places (.text quote) holes (quote :: quote :: rest')
    rw [places_text_cons holes hslash, if_pos rfl,
      places_code_cons holes fun heq => absurd heq hcomment, henter]
    exact ((ih h).trans (List.suffix_cons _ _)).trans (List.suffix_cons _ _)
  | case11 d rest' _ =>
    cases h
    show _ <:+ places (.text quote) holes (quote :: d :: rest')
    rw [places_text_cons holes hslash, if_pos rfl]
    exact List.suffix_cons _ _
  | case12 cs _ ih =>
    cases cs with
    | nil => cases h
    | cons d cs =>
      show _ <:+ places (.text quote) holes ('\\' :: d :: cs)
      rw [places]
      exact ((ih h).trans (List.suffix_cons _ _)).trans (List.suffix_cons _ _)
  | case13 => cases h
  | case14 c cs hc hbackslash _ _ ih => exact suffix_of_text hc hbackslash (ih h)
  | case15 c cs hc hbackslash _ _ ih =>
    obtain ⟨text, h⟩ := exists_of_pushed h
    exact suffix_of_text hc hbackslash (ih h)

/-- What stands behind a token of code, and the expressions in texts that are open there. -/
def Token.behind (holes : List Nat) : Token → Place × List Nat
  | .opened _ => (.code, 0 :: holes)
  | .symbol s =>
    if s = "\x7b" ∨ s = "\x23\x7b" then enter holes '\x7b'
    else if s = "\x7d" then enter holes '\x7d'
    else (.code, holes)
  | _ => (.code, holes)

/-- The places behind a token. -/
def Token.placesBehind (t : Token) (holes : List Nat) (rest : List Char) : List Placed :=
  places (t.behind holes).1 (t.behind holes).2 rest

theorem exists_of_pushedToken (holes : List Nat) {c : Char} {t : Token}
    {r : Option (Token × List Char)} (h : r.map (readVerbatim.push c) = some (t, rest)) :
    ∃ t', r = some (t', rest) ∧ t'.placesBehind holes = t.placesBehind holes := by
  obtain ⟨⟨t', after⟩, hr, heq⟩ := Option.map_eq_some_iff.1 h
  cases t' <;> cases heq <;> exact ⟨_, hr, rfl⟩

theorem places_verbatim_cons (holes : List Nat) {c : Char} {cs : List Char}
    (hopens : ¬(c = '$' ∧ cs.head? = some '\x7b')) :
    places .verbatim holes (c :: cs)
      = ⟨c, .verbatim, holes.length⟩
          :: places (if c = '\x60' then .code else .verbatim) holes cs :=
  places.eq_12 holes c cs fun _ hc hcs => hopens ⟨hc, hcs ▸ rfl⟩

/-- **A part of a text between backticks ends where its places do**: behind its closing backtick, or
in front of the brace of an expression. -/
theorem readVerbatim_places {t : Token} (h : readVerbatim cs = some (t, rest)) :
    t.placesBehind holes rest <:+ places .verbatim holes cs := by
  have hplain : ∀ {c : Char} {cs : List Char} {xs : List Placed}, c ≠ '\x60' →
      ¬(c = '$' ∧ cs.head? = some '\x7b') → xs <:+ places .verbatim holes cs →
      xs <:+ places .verbatim holes (c :: cs) := by
    intro c cs xs hc hopens hxs
    rw [places_verbatim_cons holes hopens, if_neg hc]
    exact hxs.trans (List.suffix_cons _ _)
  have hclose : ∀ cs, places .verbatim holes ('\x60' :: cs)
      = ⟨'\x60', .verbatim, holes.length⟩ :: places .code holes cs := by
    intro cs
    rw [places_verbatim_cons holes fun hopens => absurd hopens.1 (by decide), if_pos rfl]
  fun_induction readVerbatim cs generalizing t with
  | case1 => cases h
  | case2 =>
    cases h
    exact List.nil_suffix
  | case3 after ih =>
    obtain ⟨t', h, hopened⟩ := exists_of_pushedToken holes h
    have henter : enter holes '\x60' = (.verbatim, holes) := rfl
    rw [← hopened, hclose, places_code_cons holes fun heq => absurd heq (by decide), henter]
    exact ((ih h).trans (List.suffix_cons _ _)).trans (List.suffix_cons _ _)
  | case4 d after _ =>
    cases h
    rw [hclose]
    exact List.suffix_cons _ _
  | case5 d after _ hopens =>
    cases h
    obtain ⟨rfl, hbrace⟩ := hopens
    cases rest with
    | nil => cases hbrace
    | cons c rest =>
      obtain rfl : c = '\x7b' := Option.some.inj hbrace
      exact List.suffix_cons _ _
  | case6 d after hd hopens _ ih => exact hplain hd hopens (ih h)
  | case7 d after hd hopens _ ih =>
    obtain ⟨t', h, hopened⟩ := exists_of_pushedToken holes h
    exact hplain hd hopens (hopened ▸ ih h)

/-! ### Comments -/

/-- **A comment ends where its places do.** -/
theorem dropComment_places (holes : List Nat) (level : Nat) (cs : List Char) :
    places .code holes (dropComment level cs) <:+ places (.blockComment level) holes cs := by
  fun_induction dropComment level cs with
  | case1 => exact List.suffix_rfl
  | case2 level cs ih =>
    rw [places]
    exact (ih.trans (List.suffix_cons _ _)).trans (List.suffix_cons _ _)
  | case3 level cs hlevel =>
    rw [places, if_pos hlevel]
    exact (List.suffix_cons _ _).trans (List.suffix_cons _ _)
  | case4 level cs hlevel ih =>
    rw [places, if_neg hlevel]
    exact (ih.trans (List.suffix_cons _ _)).trans (List.suffix_cons _ _)
  | case5 level c cs hopen hclose ih =>
    rw [places.eq_8 holes level c cs hopen hclose]
    exact ih.trans (List.suffix_cons _ _)

/-- A line comment ends in front of the next line. -/
theorem dropWhile_places (holes : List Nat) (cs : List Char) :
    places .code holes (cs.dropWhile (· != '\n')) <:+ places .lineComment holes cs := by
  induction cs with
  | nil => exact List.suffix_rfl
  | cons c cs ih =>
    by_cases hc : c = '\n'
    · subst hc
      exact List.suffix_rfl
    · rw [List.dropWhile_cons_of_pos (by simpa using hc), places, if_neg hc]
      exact ih.trans (List.suffix_cons _ _)

/-! ### Numerals, words and symbols -/

/-- Characters of a class without those that turn are passed over. -/
theorem dropWhile_places_of_class (holes : List Nat) {q : Char → Bool}
    (hq : turning.any q = false) (cs : List Char) :
    places .code holes (cs.dropWhile q) <:+ places .code holes cs := by
  induction cs with
  | nil => exact List.suffix_rfl
  | cons c cs ih =>
    by_cases hc : q c = true
    · rw [List.dropWhile_cons_of_pos hc]
      exact suffix_of_plain (plain_of_class hq hc) ih
    · have hkept : (c :: cs).dropWhile q = c :: cs := List.dropWhile_cons_of_neg hc
      exact hkept.symm ▸ List.suffix_rfl

theorem numeralRun_places (holes : List Nat) {isDigit : Char → Bool}
    (hdigit : turning.any isDigit = false) (signed : Bool) (cs : List Char) :
    places .code holes (numeralRun isDigit signed cs).2 <:+ places .code holes cs := by
  have hplain : ∀ c ∈ ['+', '-', '_', '.', 'e', 'E'], Plain c := by simp [Plain, turning]
  fun_induction numeralRun isDigit signed cs with
  | case1 | case6 | case9 | case10 => exact List.suffix_rfl
  | case2 _ c _ h ih =>
    refine suffix_of_plain (hplain c ?_) ih
    rcases h.2 with rfl | rfl <;> decide
  | case3 _ _ _ ih => exact suffix_of_plain (hplain _ (by decide)) ih
  | case4 _ _ _ _ _ h ih => exact suffix_of_plain (plain_of_class hdigit h) ih
  | case5 _ _ _ _ _ _ _ ih => exact suffix_of_plain (hplain _ (by decide)) ih
  | case7 _ _ _ _ _ _ _ _ ih => exact suffix_of_plain (hplain _ (by decide)) ih
  | case8 _ c _ _ _ _ _ _ h _ ih =>
    refine suffix_of_plain (hplain c ?_) ih
    rcases h with rfl | rfl <;> decide

theorem readNumber_places {negative : Bool} {t : Token}
    (h : readNumber negative cs = some (t, rest)) :
    t.placesBehind holes rest <:+ places .code holes cs := by
  have hnumber : t.placesBehind holes rest = places .code holes rest := by
    have ht := (leaves_readNumber negative cs t rest h).1
    cases t <;> first | rfl | cases ht
  rw [hnumber]
  have hdecimal : readNumber.decimal negative cs = some (t, rest) →
      places .code holes rest <:+ places .code holes cs := by
    intro hread
    obtain ⟨found, -, heq⟩ := Option.map_eq_some_iff.1 hread
    obtain ⟨-, rfl⟩ := Prod.mk.inj heq
    exact numeralRun_places holes rfl false cs
  unfold readNumber at h
  split at h
  · next b after =>
    split at h
    · next base hbase =>
      obtain ⟨n, -, heq⟩ := Option.map_eq_some_iff.1 h
      obtain ⟨-, rfl⟩ := Prod.mk.inj heq
      have hb : Plain b := by
        intro hmem
        simp only [turning, List.mem_cons, List.not_mem_nil, or_false] at hmem
        rcases hmem with rfl | rfl | rfl | rfl | rfl | rfl <;> cases hbase
      have hzero : Plain '0' := by simp [Plain, turning]
      exact suffix_of_plain hzero (suffix_of_plain hb (numeralRun_places holes rfl false after))
    · exact hdecimal h
  · exact hdecimal h

theorem suffix_of_plains {front : List Char} (hfront : ∀ c ∈ front, Plain c) (holes : List Nat)
    (rest : List Char) : places .code holes rest <:+ places .code holes (front ++ rest) := by
  induction front with
  | nil => exact List.suffix_rfl
  | cons c front ih =>
    obtain ⟨hc, hfront⟩ := List.forall_mem_cons.1 hfront
    exact suffix_of_plain hc (ih hfront)

/-- The symbols that hold a character that turns. -/
def turningSymbols : List String := ["\x7b", "\x23\x7b", "\x7d", "/", "/="]

theorem plain_of_symbol {s : String} (hs : s ∈ symbols) (hplain : s ∉ turningSymbols) :
    ∀ c ∈ s.toList, Plain c := by
  intro c hc hturns
  have htable : symbols.all (fun s =>
      turningSymbols.contains s || !s.toList.any turning.contains) = true := by
    decide +kernel
  have hrow := List.all_eq_true.1 htable s hs
  have hany : s.toList.any turning.contains = true :=
    List.any_eq_true.2 ⟨c, hc, List.contains_iff_mem.2 hturns⟩
  simp [hplain, hany] at hrow

/-- A symbol that starts no comment. -/
theorem symbol_places {s : String} (hs : s ∈ symbols) (holes : List Nat)
    (hcomment : ∀ after, s.toList ++ rest = '/' :: after →
      after.head? ≠ some '/' ∧ after.head? ≠ some '*') :
    (Token.symbol s).placesBehind holes rest <:+ places .code holes (s.toList ++ rest) := by
  by_cases hturns : s ∈ turningSymbols
  · simp only [turningSymbols, List.mem_cons, List.not_mem_nil, or_false] at hturns
    rcases hturns with rfl | rfl | rfl | rfl | rfl
    · show _ <:+ places .code holes ('\x7b' :: rest)
      rw [places_code_cons holes fun heq => absurd heq (by decide)]
      exact List.suffix_cons _ _
    · show _ <:+ places .code holes ('\x23' :: '\x7b' :: rest)
      rw [places_of_plain holes (by simp [Plain, turning]),
        places_code_cons holes fun heq => absurd heq (by decide)]
      exact (List.suffix_cons _ _).trans (List.suffix_cons _ _)
    · show _ <:+ places .code holes ('\x7d' :: rest)
      rw [places_code_cons holes fun heq => absurd heq (by decide)]
      exact List.suffix_cons _ _
    · show _ <:+ places .code holes ('/' :: rest)
      rw [places_code_cons holes fun _ => hcomment rest rfl]
      exact List.suffix_cons _ _
    · show _ <:+ places .code holes ('/' :: '=' :: rest)
      have hequals : Plain '=' := by simp [Plain, turning]
      have henter : enter holes '/' = (.code, holes) := rfl
      rw [places_code_cons holes fun _ => hcomment ('=' :: rest) rfl, henter]
      exact (suffix_of_plain hequals List.suffix_rfl).trans (List.suffix_cons _ _)
  · have hbehind : (Token.symbol s).behind holes = (.code, holes) := by
      simp only [turningSymbols, List.mem_cons, List.not_mem_nil, or_false, not_or] at hturns
      obtain ⟨hopen, hrecord, hclose, -, -⟩ := hturns
      rw [Token.behind, if_neg (not_or.2 ⟨hopen, hrecord⟩), if_neg hclose]
    rw [Token.placesBehind, hbehind]
    exact suffix_of_plains (plain_of_symbol hs hturns) holes rest

theorem readSymbol_places {s : String} (h : readSymbol cs = some (s, rest)) (holes : List Nat)
    (hcomment : ∀ after, cs = '/' :: after → after.head? ≠ some '/' ∧ after.head? ≠ some '*') :
    (Token.symbol s).placesBehind holes rest <:+ places .code holes cs := by
  unfold readSymbol at h
  split at h
  · cases h
  · obtain ⟨s', hs, hfound⟩ := List.exists_of_findSome?_eq_some h
    obtain ⟨after, hafter, heq⟩ := Option.map_eq_some_iff.1 hfound
    obtain ⟨rfl, rfl⟩ := Prod.mk.inj heq
    obtain rfl := Text.dropStart?_eq_some hafter
    exact symbol_places hs holes hcomment

theorem readNotIn_places (h : readNotIn cs = some rest) (holes : List Nat) :
    places .code holes rest <:+ places .code holes cs := by
  unfold readNotIn at h
  split at h
  · obtain ⟨-, heq⟩ := Option.ite_none_left_eq_some.1 h
    obtain rfl := Option.some.inj heq
    have hplain : ∀ c ∈ ['!', 'i', 'n'], Plain c := by simp [Plain, turning]
    exact suffix_of_plains hplain holes _
  · cases h

/-! ### Fronts of texts -/

/-- What a scanner passes over ends where the places do. -/
def Scanned.Passes (holes : List Nat) (cs : List Char) : Scanned → Prop
  | .blank rest => places .code holes rest <:+ places .code holes cs
  | .token t rest => t.placesBehind holes rest <:+ places .code holes cs

/-- **The scanner keeps to the places**: in front of a token in code, it is behind that token where
the rules of the language say. -/
theorem Fronts.places {front : Scanned} (h : Fronts cs front) (holes : List Nat) :
    front.Passes holes cs := by
  cases h with
  | blank hblank =>
    exact suffix_of_plain (plain_of_class (by decide) hblank) List.suffix_rfl
  | lineComment rest =>
    exact ((dropWhile_places holes rest).trans (List.suffix_cons _ _)).trans (List.suffix_cons _ _)
  | blockComment rest =>
    exact ((dropComment_places holes 1 rest).trans (List.suffix_cons _ _)).trans
      (List.suffix_cons _ _)
  | text h => exact (readText_places (.inl rfl) h).trans (List.suffix_cons _ _)
  | char h => exact (readText_places (.inr rfl) h).trans (List.suffix_cons _ _)
  | verbatim h => exact (readVerbatim_places h).trans (List.suffix_cons _ _)
  | number h => exact readNumber_places h
  | negative h =>
    have hplain : Plain '-' := by simp [Plain, turning]
    exact (readNumber_places h).trans (suffix_of_plain hplain List.suffix_rfl)
  | word => exact dropWhile_places_of_class holes (by decide) _
  | notIn h => exact readNotIn_places h holes
  | symbol h hcomment => exact readSymbol_places h holes hcomment

theorem scanFront?_places {signed : Bool} {front : Scanned}
    (h : scanFront? signed cs = some front) (holes : List Nat) : front.Passes holes cs :=
  (fronts_of_scanFront? h).places holes

/-! ### Whole texts -/

/-- A token that ends no expression in a text leaves the scanner in code. -/
theorem Token.behind_eq {t : Token} (h : t = .symbol "\x7d" → holes.head? ≠ some 1) :
    t.behind holes = (.code, t.depthsBehind holes) := by
  cases t with
  | symbol s =>
    unfold Token.behind Token.depthsBehind
    dsimp only
    by_cases hopen : s = "\x7b" ∨ s = "\x23\x7b"
    · rw [if_pos hopen, if_pos hopen]
      rfl
    · rw [if_neg hopen, if_neg hopen]
      by_cases hclose : s = "\x7d"
      · rw [if_pos hclose, if_pos hclose]
        have hhead := h (congrArg _ hclose)
        cases holes with
        | nil => rfl
        | cons n outer =>
          have hn : n ≠ 1 := fun heq => hhead (congrArg some heq)
          unfold enter
          simp [hn]
      · rw [if_neg hclose, if_neg hclose]
  | _ => rfl

/-- A name stands in code. -/
def InCode (xs : List Placed) (name : String) : Prop :=
  ∃ depth, (name.toList.map fun c => (⟨c, .code, depth⟩ : Placed)) <:+: xs

theorem InCode.of_suffix {xs ys : List Placed} {name : String} (h : InCode ys name)
    (hsuffix : ys <:+ xs) : InCode xs name := by
  obtain ⟨depth, hname⟩ := h
  exact ⟨depth, hname.trans hsuffix.isInfix⟩

/-- The characters of a word stand in code. -/
theorem inCode_of_takeWhile {name : String} (h : name.toList = cs.takeWhile isIdentChar) :
    InCode (places .code holes cs) name := by
  refine ⟨holes.length, List.IsPrefix.isInfix ?_⟩
  rw [h]
  clear h
  induction cs with
  | nil => exact List.nil_prefix
  | cons c cs ih =>
    by_cases hc : isIdentChar c = true
    · rw [List.takeWhile_cons_of_pos hc, List.map_cons,
        places_of_plain holes (plain_of_class (by decide) hc)]
      exact List.cons_prefix_cons.2 ⟨rfl, ih⟩
    · rw [List.takeWhile_cons_of_neg hc]
      exact List.nil_prefix

/-- **The words among the tokens of a text stand in code**, and not in texts or comments. -/
theorem Scans.inCode {tokens : List Token} (h : Scans holes cs tokens) :
    Words (InCode (places .code holes cs)) tokens := by
  induction h with
  | done => exact Words.nil
  | blank hfront _ ih =>
    exact ih.mono fun _ hname => hname.of_suffix (scanFront?_places hfront _)
  | @token signed depths cs rest t ts hfront hopen _ ih =>
    have hpasses := scanFront?_places hfront depths
    rw [Scanned.Passes, Token.placesBehind, Token.behind_eq hopen] at hpasses
    have hword := (scanFront?_front hfront).1
    exact Words.cons (fun name hname => inCode_of_takeWhile (hword name hname))
      (ih.mono fun _ hname => hname.of_suffix hpasses)
  | @close signed outer cs rest after text ts hfront htext _ ih =>
    have hpasses := scanFront?_places hfront (1 :: outer)
    have hpart := (leaves_readVerbatim _ _ _ htext).1
    have hnoBrace : text ≠ .symbol "\x7d" := by
      rintro rfl
      cases hpart
    have hbehind : text.placesBehind outer after <:+ places .verbatim outer rest :=
      readVerbatim_places htext
    rw [Token.placesBehind, Token.behind_eq fun heq => absurd heq hnoBrace] at hbehind
    refine Words.cons nofun (Words.cons ?_ (ih.mono fun _ hname =>
      hname.of_suffix (hbehind.trans hpasses)))
    intro name hname
    rw [Token.word?_of_isText hpart] at hname
    cases hname

/-- The words of an expression as it is written stand in code. -/
theorem words_inCode {tokens : List Token} (h : scan? cs = some tokens) :
    Words (InCode (placed cs)) tokens :=
  (scans_of_scanFrom? h).inCode

end Runbook.Condition
