import Runbook.Proofs.Condition.Quotation
/-!
# What the characters of a condition stand in

Where a single quote stands inside a text or a comment, it opens nothing in the expression language.
Requoting has its own notion of what is a text; this file says when the two agree.

* `places`, `chars_places` — what each character of an expression stands in, by the rules of the
  language;
* `requote_eq_self_iff` — requoting changes nothing exactly if each single quote stands where a text
  is open by its own notion;
* `Agreed` — no comment holds a quotation mark, and no text between backticks seems to end early or
  late; `requote_eq_self_of_places` — the two notions go side by side.
-/

namespace Runbook.Condition

/-! ### The language's notion -/

/-- What a character of an expression stands in. -/
inductive Place where
  | code
  | lineComment
  | blockComment (level : Nat)
  | text (quote : Char)
  | verbatim
deriving DecidableEq, Repr

/-- Whether a place is inside a comment. -/
def Place.isComment : Place → Bool
  | .lineComment => true
  | .blockComment _ => true
  | _ => false

/-- A character, what it stands in, and how many expressions in texts between backticks it is
inside of. -/
structure Placed where
  char : Char
  place : Place
  depth : Nat
deriving DecidableEq, Repr

/-- What follows a character of code; `holes` counts the open braces of each expression in a text
between backticks that is still open, the innermost first.  A single quote starts a character, which
is written like a text. -/
def enter (holes : List Nat) (c : Char) : Place × List Nat :=
  if c = '"' ∨ c = '\'' then (.text c, holes)
  else if c = '\x60' then (.verbatim, holes)
  else if c = '\x7b' then (.code, scanFrom?.deeper holes)
  else if c = '\x7d' then
    match holes with
    | 1 :: outer => (.verbatim, outer)
    | holes => (.code, scanFrom?.shallower holes)
  else (.code, holes)

/-- What the characters of an expression stand in.  A line comment ends in front of the end of its
line and other comments nest; in a text between double quotes a backslash takes the next character
with it, and in one between backticks it is a character like any other, but a dollar sign and a
brace open an expression. -/
def places : Place → (holes : List Nat) → List Char → List Placed
  | _, _, [] => []
  | .code, holes, '/' :: '/' :: cs =>
    ⟨'/', .lineComment, holes.length⟩ :: ⟨'/', .lineComment, holes.length⟩
      :: places .lineComment holes cs
  | .code, holes, '/' :: '*' :: cs =>
    ⟨'/', .blockComment 1, holes.length⟩ :: ⟨'*', .blockComment 1, holes.length⟩
      :: places (.blockComment 1) holes cs
  | .code, holes, c :: cs =>
    ⟨c, .code, holes.length⟩ :: places (enter holes c).1 (enter holes c).2 cs
  | .lineComment, holes, c :: cs =>
    if c = '\n' then ⟨c, .code, holes.length⟩ :: places .code holes cs
    else ⟨c, .lineComment, holes.length⟩ :: places .lineComment holes cs
  | .blockComment level, holes, '/' :: '*' :: cs =>
    ⟨'/', .blockComment level, holes.length⟩ :: ⟨'*', .blockComment level, holes.length⟩
      :: places (.blockComment (level + 1)) holes cs
  | .blockComment level, holes, '*' :: '/' :: cs =>
    ⟨'*', .blockComment level, holes.length⟩ :: ⟨'/', .blockComment level, holes.length⟩
      :: places (if level ≤ 1 then .code else .blockComment (level - 1)) holes cs
  | .blockComment level, holes, c :: cs =>
    ⟨c, .blockComment level, holes.length⟩ :: places (.blockComment level) holes cs
  | .text quote, holes, '\\' :: c :: cs =>
    ⟨'\\', .text quote, holes.length⟩ :: ⟨c, .text quote, holes.length⟩
      :: places (.text quote) holes cs
  | .text quote, holes, c :: cs =>
    ⟨c, .text quote, holes.length⟩ :: places (if c = quote then .code else .text quote) holes cs
  | .verbatim, holes, '$' :: '\x7b' :: cs =>
    ⟨'$', .verbatim, holes.length⟩ :: ⟨'\x7b', .code, holes.length + 1⟩
      :: places .code (1 :: holes) cs
  | .verbatim, holes, c :: cs =>
    ⟨c, .verbatim, holes.length⟩ :: places (if c = '\x60' then .code else .verbatim) holes cs

/-- Every character stands in something. -/
theorem chars_places (place : Place) (holes : List Nat) (cs : List Char) :
    (places place holes cs).map Placed.char = cs := by
  fun_induction places place holes cs <;> simp_all

/-- The characters of a whole expression with what they stand in. -/
def placed (cs : List Char) : List Placed :=
  places .code [] cs

/-- No single quote stands outside of texts and comments. -/
def NoBareQuote (cs : List Char) : Prop :=
  ∀ p ∈ placed cs, p.place = .code → p.depth = 0 → p.char ≠ '\''

/-- Comments and texts between backticks hold nothing that requoting takes for the start or the end
of a text: comments hold no quotation mark, no backslash stands in front of a backtick, and
expressions in texts between backticks hold no backtick. -/
structure Agreed (cs : List Char) : Prop where
  comments : ∀ p ∈ placed cs, p.place.isComment = true → p.depth = 0 → p.char ∉ marks
  backslashes : ¬['\\', '\x60'] <:+: cs
  holes : ∀ p ∈ placed cs, 0 < p.depth → p.char ≠ '\x60'

/-! ### When requoting changes nothing -/

/-- Each single quote stands where a text is open. -/
def QuotesInside (quote : Option Char) (cs : List Char) : Prop :=
  ∀ front back, cs = front ++ '\'' :: back → openAfter quote front ≠ none

theorem quotesInside_nil (quote : Option Char) : QuotesInside quote [] := by
  intro front back h
  cases front <;> cases h

/-- A character after which `next` is open, and which is no single quote outside of all texts. -/
theorem quotesInside_cons {quote next : Option Char} {c : Char} {cs : List Char}
    (hnext : ∀ front, openAfter quote (c :: front) = openAfter next front)
    (hc : c = '\'' → quote ≠ none) :
    QuotesInside quote (c :: cs) ↔ QuotesInside next cs := by
  constructor
  · intro h front back hcs
    rw [← hnext front]
    exact h (c :: front) back (congrArg (c :: ·) hcs)
  · intro h front back hcs
    cases front with
    | nil => exact hc (List.cons.inj hcs).1
    | cons d front =>
      obtain ⟨rfl, hrest⟩ := List.cons.inj hcs
      rw [hnext front]
      exact h front back hrest

/-- A backslash in a text takes the next character with it. -/
theorem quotesInside_escape (q c : Char) (cs : List Char) :
    QuotesInside (some q) ('\\' :: c :: cs) ↔ QuotesInside (some q) cs := by
  constructor
  · intro h front back hcs
    have hfront : openAfter (some q) ('\\' :: c :: front) = openAfter (some q) front := rfl
    rw [← hfront]
    exact h ('\\' :: c :: front) back (congrArg ('\\' :: c :: ·) hcs)
  · intro h front back hcs
    cases front with
    | nil => exact absurd (List.cons.inj hcs).1 (by decide)
    | cons d front =>
      obtain ⟨rfl, hrest⟩ := List.cons.inj hcs
      cases front with
      | nil => nofun
      | cons e front => exact h front back (List.cons.inj hrest).2

theorem none_ne_single : (none : Option Char) ≠ some '\'' :=
  (Option.some_ne_none _).symm

/-- **Requoting changes nothing exactly if each single quote stands inside a text**, by its own
notion of texts. -/
theorem requote_eq_self_iff {quote : Option Char} (hquote : quote ≠ some '\'') (cs : List Char) :
    requote quote cs = cs ↔ QuotesInside quote cs := by
  fun_induction requote quote cs with
  | case1 quote => simp [quotesInside_nil]
  | case2 cs ih =>
    have hbare : ¬QuotesInside none ('\'' :: cs) := fun h => h [] cs rfl rfl
    simp [hbare]
  | case3 c cs hsingle hmark ih =>
    have hc : c ∈ marks := by
      rcases hmark with rfl | rfl <;> decide
    have hnext : ∀ front, openAfter none (c :: front) = openAfter (some c) front :=
      fun front => by rw [openAfter, if_pos hc]
    rw [quotesInside_cons hnext fun h => absurd h hsingle,
      ← ih (fun h => hsingle (Option.some.inj h)), List.cons_inj_right]
  | case4 c cs hsingle hmarks ih =>
    have hc : c ∉ marks := by
      simpa [marks, hsingle] using hmarks
    have hnext : ∀ front, openAfter none (c :: front) = openAfter none front :=
      fun front => by rw [openAfter, if_neg hc]
    rw [quotesInside_cons hnext fun h => absurd h hsingle, ← ih none_ne_single,
      List.cons_inj_right]
  | case5 q =>
    have hinside : QuotesInside (some q) ['\\'] := by
      intro front back h
      cases front with
      | nil => exact absurd (List.cons.inj h).1 (by decide)
      | cons d front => cases front <;> cases (List.cons.inj h).2
    simp [hinside]
  | case6 q c cs hsingle => exact absurd (congrArg some hsingle.1) hquote
  | case7 q c cs _ ih =>
    rw [quotesInside_escape, ← ih hquote, List.cons_inj_right, List.cons_inj_right]
  | case8 q cs hlast hmore ih =>
    have hc := ne_backslash hlast hmore
    have hsingle : ¬q = '\'' := fun h => hquote (congrArg some h)
    have hnext : ∀ front, openAfter (some q) (q :: front) = openAfter none front :=
      fun front => (openAfter_cons hc front).trans (if_pos rfl)
    rw [if_neg hsingle, quotesInside_cons hnext fun _ => Option.some_ne_none _,
      ← ih none_ne_single, List.cons_inj_right]
  | case9 q c cs _ _ _ hsingle => exact absurd (congrArg some hsingle.1) hquote
  | case10 q c cs hlast hmore hq _ ih =>
    have hc := ne_backslash hlast hmore
    have hnext : ∀ front, openAfter (some q) (c :: front) = openAfter (some q) front :=
      fun front => (openAfter_cons hc front).trans (if_neg hq)
    rw [quotesInside_cons hnext fun _ => Option.some_ne_none _,
      ← ih hquote, List.cons_inj_right]

/-! ### Both notions side by side -/

/-- The quotation mark that is open by requoting's notion, by what the language's says. -/
def markAt (place : Place) (holes : List Nat) : Option Char :=
  match holes, place with
  | [], .text quote => some quote
  | [], .verbatim => some '\x60'
  | [], _ => none
  | _ :: _, _ => some '\x60'

/-- Between backticks, a backslash that stands in front of none changes nothing. -/
theorem requote_verbatim_cons {c : Char} {cs : List Char} (hc : c ≠ '\x60')
    (hbackslashes : ¬['\\', '\x60'] <:+: c :: cs) :
    requote (some '\x60') (c :: cs) = c :: requote (some '\x60') cs := by
  induction cs generalizing c with
  | nil =>
    by_cases hbackslash : c = '\\'
    · subst hbackslash
      rfl
    · rw [requote_cons hbackslash, if_neg hc, if_neg (by simp)]
  | cons d cs ih =>
    by_cases hbackslash : c = '\\'
    · subst hbackslash
      have hd : d ≠ '\x60' := by
        rintro rfl
        exact hbackslashes ⟨[], cs, rfl⟩
      have hrest : ¬['\\', '\x60'] <:+: d :: cs :=
        fun h => hbackslashes (h.trans (List.suffix_cons _ _).isInfix)
      rw [requote, if_neg (by simp), ih hd hrest]
    · rw [requote_cons hbackslash, if_neg hc, if_neg (by simp)]

/-- What holds of a character of an agreed condition without bare quotes. -/
def Placed.Harmless (p : Placed) : Prop :=
  if p.depth = 0 then
    (p.place = .code → p.char ≠ '\'') ∧ (p.place.isComment = true → p.char ∉ marks)
  else p.char ≠ '\x60'

namespace Placed.Harmless

variable {c : Char} {place : Place} {n : Nat} {outer : List Nat}

theorem code (h : Harmless ⟨c, .code, ([] : List Nat).length⟩) : c ≠ '\'' :=
  h.1 rfl

theorem comment (h : Harmless ⟨c, place, ([] : List Nat).length⟩)
    (hplace : place.isComment = true) : c ∉ marks :=
  h.2 hplace

theorem hole (h : Harmless ⟨c, place, (n :: outer).length⟩) : c ≠ '\x60' :=
  h

end Placed.Harmless

theorem outside_cons {c : Char} {cs : List Char} (hc : c ∉ marks)
    (h : requote none cs = cs) : requote none (c :: cs) = c :: cs := by
  rw [requote_of_unmarked hc, h]

theorem verbatim_cons {c : Char} {cs : List Char} (hc : c ≠ '\x60')
    (hbackslashes : ¬['\\', '\x60'] <:+: c :: cs) (h : requote (some '\x60') cs = cs) :
    requote (some '\x60') (c :: cs) = c :: cs := by
  rw [requote_verbatim_cons hc hbackslashes, h]

/-- Inside an expression in a text between backticks, that text stays open. -/
theorem markAt_enter_cons (n : Nat) (outer : List Nat) (c : Char) :
    markAt (enter (n :: outer) c).1 (enter (n :: outer) c).2 = some '\x60' := by
  have hverbatim : markAt .verbatim outer = some '\x60' := by cases outer <;> rfl
  unfold enter
  split
  · rfl
  · split
    · rfl
    · split
      · rfl
      · split
        · split
          · next heq =>
            obtain ⟨-, rfl⟩ := List.cons.inj heq
            exact hverbatim
          · rfl
        · rfl

/-- Outside of them, a quotation mark opens a text. -/
theorem markAt_enter_nil (c : Char) :
    markAt (enter [] c).1 (enter [] c).2 = if c ∈ marks then some c else none := by
  unfold enter
  by_cases hquote : c = '"' ∨ c = '\''
  · have hmark : c ∈ marks := by
      rcases hquote with rfl | rfl <;> decide
    rw [if_pos hquote, if_pos hmark]
    rfl
  · by_cases hverbatim : c = '\x60'
    · subst hverbatim
      rfl
    · have hplain : c ∉ marks := by
        simp only [marks, List.mem_cons, List.not_mem_nil, or_false]
        tauto
      rw [if_neg hquote, if_neg hverbatim, if_neg hplain]
      split
      · rfl
      · split <;> rfl

theorem not_infix_of_cons {c : Char} {part cs : List Char} (h : ¬part <:+: c :: cs) :
    ¬part <:+: cs :=
  fun hpart => h (hpart.trans (List.suffix_cons _ _).isInfix)

/-- Comments leave no text open that is not open around them. -/
theorem markAt_comment {place : Place} (h : place.isComment = true) (holes : List Nat) :
    markAt place holes = markAt .code holes := by
  cases holes with
  | nil => cases place <;> first | rfl | cases h
  | cons n outer => rfl

/-- A character of a comment. -/
theorem comment_cons {c : Char} {place : Place} {holes : List Nat} {cs : List Char}
    (hplace : place.isComment = true) (hc : Placed.Harmless ⟨c, place, holes.length⟩)
    (hbackslashes : ¬['\\', '\x60'] <:+: c :: cs) (h : requote (markAt .code holes) cs = cs) :
    requote (markAt .code holes) (c :: cs) = c :: cs := by
  cases holes with
  | nil => exact outside_cons (hc.comment hplace) h
  | cons n outer => exact verbatim_cons hc.hole hbackslashes h

/-- Two characters of a comment, which open it, end it or nest in it. -/
theorem comment_cons₂ {c d : Char} {place : Place} {holes : List Nat} {cs : List Char}
    (hplace : place.isComment = true) (hc : Placed.Harmless ⟨c, place, holes.length⟩)
    (hd : Placed.Harmless ⟨d, place, holes.length⟩)
    (hbackslashes : ¬['\\', '\x60'] <:+: c :: d :: cs)
    (h : requote (markAt .code holes) cs = cs) :
    requote (markAt .code holes) (c :: d :: cs) = c :: d :: cs :=
  comment_cons hplace hc hbackslashes
    (comment_cons hplace hd (not_infix_of_cons hbackslashes) h)

/-- A character of code. -/
theorem code_cons {c : Char} {holes : List Nat} {cs : List Char}
    (hc : Placed.Harmless ⟨c, .code, holes.length⟩)
    (hbackslashes : ¬['\\', '\x60'] <:+: c :: cs)
    (h : requote (markAt (enter holes c).1 (enter holes c).2) cs = cs) :
    requote (markAt .code holes) (c :: cs) = c :: cs := by
  cases holes with
  | cons n outer =>
    rw [markAt_enter_cons] at h
    exact verbatim_cons hc.hole hbackslashes h
  | nil =>
    rw [markAt_enter_nil] at h
    show requote none (c :: cs) = c :: cs
    split at h
    · next hmark => rw [requote_of_mark hmark, if_neg hc.code, h]
    · next hplain => exact outside_cons hplain h

/-- No text between single quotes is open, other than inside one between backticks. -/
def Clean (place : Place) (holes : List Nat) : Prop :=
  holes = [] → place ≠ .text '\''

/-- A character of a text that is no backslash with a character behind it. -/
theorem text_cons {quote c : Char} {holes : List Nat} {cs : List Char}
    (hclean : Clean (.text quote) holes)
    (hc : Placed.Harmless ⟨c, .text quote, holes.length⟩)
    (hbackslashes : ¬['\\', '\x60'] <:+: c :: cs)
    (hescape : ∀ d rest, c = '\\' → cs = d :: rest → False)
    (h : requote (markAt (if c = quote then .code else .text quote) holes) cs = cs) :
    requote (markAt (.text quote) holes) (c :: cs) = c :: cs := by
  cases holes with
  | cons n outer => exact verbatim_cons hc.hole hbackslashes h
  | nil =>
    have hsingle : ¬quote = '\'' := fun heq => hclean rfl (congrArg _ heq)
    show requote (some quote) (c :: cs) = c :: cs
    by_cases hbackslash : c = '\\'
    · cases cs with
      | nil =>
        subst hbackslash
        rfl
      | cons d rest => exact absurd rfl (hescape d rest hbackslash)
    · rw [requote_cons hbackslash]
      by_cases hclose : c = quote
      · rw [if_pos hclose] at h ⊢
        rw [if_neg hsingle]
        exact congrArg (c :: ·) h
      · rw [if_neg hclose] at h ⊢
        rw [if_neg fun hboth => hsingle hboth.1]
        exact congrArg (c :: ·) h

/-- A character of a text between backticks. -/
theorem backtick_cons {c : Char} {holes : List Nat} {cs : List Char}
    (hc : Placed.Harmless ⟨c, .verbatim, holes.length⟩)
    (hbackslashes : ¬['\\', '\x60'] <:+: c :: cs)
    (h : requote (markAt (if c = '\x60' then .code else .verbatim) holes) cs = cs) :
    requote (markAt .verbatim holes) (c :: cs) = c :: cs := by
  cases holes with
  | cons n outer => exact verbatim_cons hc.hole hbackslashes h
  | nil =>
    show requote (some '\x60') (c :: cs) = c :: cs
    by_cases hclose : c = '\x60'
    · subst hclose
      exact (requote_cons (by decide) cs).trans (congrArg ('\x60' :: ·) h)
    · rw [if_neg hclose] at h
      exact verbatim_cons hclose hbackslashes h

/-- What holds of two characters and of all behind them. -/
theorem forall_mem_cons₂ {α : Type} {p : α → Prop} {a b : α} {xs : List α}
    (h : ∀ x ∈ a :: b :: xs, p x) : p a ∧ p b ∧ ∀ x ∈ xs, p x :=
  (List.forall_mem_cons.1 h).imp_right List.forall_mem_cons.1

theorem clean_of_isComment {place : Place} (h : place.isComment = true) (holes : List Nat) :
    Clean place holes := by
  rintro - rfl
  cases h

theorem clean_code (holes : List Nat) : Clean .code holes :=
  fun _ => Place.noConfusion

theorem clean_cons (place : Place) (n : Nat) (outer : List Nat) : Clean place (n :: outer) :=
  fun h => absurd h (List.cons_ne_nil n outer)

/-- Code without bare quotes opens no text between single quotes. -/
theorem clean_enter {c : Char} {holes : List Nat}
    (hc : Placed.Harmless ⟨c, .code, holes.length⟩) :
    Clean (enter holes c).1 (enter holes c).2 := by
  unfold enter
  split
  · intro hnil hsingle
    dsimp only at hnil hsingle
    subst hnil
    exact hc.code (Place.text.inj hsingle)
  · split
    · exact fun _ => Place.noConfusion
    · split
      · exact clean_code _
      · split
        · split
          · exact fun _ => Place.noConfusion
          · exact clean_code _
        · exact clean_code _

/-- **Both notions go side by side** over the characters of an agreed condition. -/
theorem requote_eq_self_of_places {place : Place} {holes : List Nat} {cs : List Char}
    (hclean : Clean place holes) (hplaces : ∀ p ∈ places place holes cs, p.Harmless)
    (hbackslashes : ¬['\\', '\x60'] <:+: cs) : requote (markAt place holes) cs = cs := by
  fun_induction places place holes cs with
  | case1 place holes => rfl
  | case2 holes cs ih =>
    obtain ⟨hfirst, hsecond, hrest⟩ := forall_mem_cons₂ hplaces
    have htail := not_infix_of_cons (not_infix_of_cons hbackslashes)
    have ih := ih (clean_of_isComment rfl holes) hrest htail
    rw [markAt_comment rfl] at ih
    exact comment_cons₂ rfl hfirst hsecond hbackslashes ih
  | case3 holes cs ih =>
    obtain ⟨hfirst, hsecond, hrest⟩ := forall_mem_cons₂ hplaces
    have htail := not_infix_of_cons (not_infix_of_cons hbackslashes)
    have ih := ih (clean_of_isComment rfl holes) hrest htail
    rw [markAt_comment rfl] at ih
    exact comment_cons₂ rfl hfirst hsecond hbackslashes ih
  | case4 holes c cs _ _ ih =>
    obtain ⟨hfirst, hrest⟩ := List.forall_mem_cons.1 hplaces
    exact code_cons hfirst hbackslashes
      (ih (clean_enter hfirst) hrest (not_infix_of_cons hbackslashes))
  | case5 holes cs ih =>
    obtain ⟨hfirst, hrest⟩ := List.forall_mem_cons.1 hplaces
    have ih := ih (clean_code holes) hrest (not_infix_of_cons hbackslashes)
    rw [markAt_comment rfl]
    exact code_cons hfirst hbackslashes ih
  | case6 holes c cs _ ih =>
    obtain ⟨hfirst, hrest⟩ := List.forall_mem_cons.1 hplaces
    have ih := ih (clean_of_isComment rfl holes) hrest (not_infix_of_cons hbackslashes)
    rw [markAt_comment rfl] at ih ⊢
    exact comment_cons rfl hfirst hbackslashes ih
  | case7 level holes cs ih =>
    obtain ⟨hfirst, hsecond, hrest⟩ := forall_mem_cons₂ hplaces
    have htail := not_infix_of_cons (not_infix_of_cons hbackslashes)
    have ih := ih (clean_of_isComment rfl holes) hrest htail
    rw [markAt_comment rfl] at ih ⊢
    exact comment_cons₂ rfl hfirst hsecond hbackslashes ih
  | case8 level holes cs ih =>
    obtain ⟨hfirst, hsecond, hrest⟩ := forall_mem_cons₂ hplaces
    have htail := not_infix_of_cons (not_infix_of_cons hbackslashes)
    have hnext : Clean (if level ≤ 1 then .code else .blockComment (level - 1)) holes ∧
        markAt (if level ≤ 1 then .code else .blockComment (level - 1)) holes
          = markAt .code holes := by
      split
      · exact ⟨clean_code holes, rfl⟩
      · exact ⟨clean_of_isComment rfl holes, markAt_comment rfl holes⟩
    have ih := ih hnext.1 hrest htail
    rw [hnext.2] at ih
    rw [markAt_comment rfl]
    exact comment_cons₂ rfl hfirst hsecond hbackslashes ih
  | case9 level holes c cs _ _ ih =>
    obtain ⟨hfirst, hrest⟩ := List.forall_mem_cons.1 hplaces
    have ih := ih (clean_of_isComment rfl holes) hrest (not_infix_of_cons hbackslashes)
    rw [markAt_comment rfl] at ih ⊢
    exact comment_cons rfl hfirst hbackslashes ih
  | case10 quote holes c cs ih =>
    obtain ⟨hfirst, hsecond, hrest⟩ := forall_mem_cons₂ hplaces
    have htail := not_infix_of_cons hbackslashes
    have ih := ih hclean hrest (not_infix_of_cons htail)
    cases holes with
    | nil =>
      have hsingle : ¬(quote = '\'' ∧ c = '\'') := by
        rintro ⟨rfl, -⟩
        exact hclean rfl rfl
      calc requote (some quote) ('\\' :: c :: cs)
          = '\\' :: c :: requote (some quote) cs := by rw [requote.eq_4, if_neg hsingle]
        _ = '\\' :: c :: cs := by rw [show requote (some quote) cs = cs from ih]
    | cons n outer =>
      exact verbatim_cons hfirst.hole hbackslashes (verbatim_cons hsecond.hole htail ih)
  | case11 quote holes c cs hescape ih =>
    obtain ⟨hfirst, hrest⟩ := List.forall_mem_cons.1 hplaces
    have hnext : Clean (if c = quote then .code else .text quote) holes := by
      split
      · exact clean_code holes
      · exact hclean
    exact text_cons hclean hfirst hbackslashes hescape
      (ih hnext hrest (not_infix_of_cons hbackslashes))
  | case12 holes cs ih =>
    obtain ⟨-, -, hrest⟩ := forall_mem_cons₂ hplaces
    have htail := not_infix_of_cons hbackslashes
    have ih := ih (clean_cons _ _ _) hrest (not_infix_of_cons htail)
    have hmark : markAt .verbatim holes = some '\x60' := by cases holes <;> rfl
    rw [hmark]
    exact verbatim_cons (by decide) hbackslashes (verbatim_cons (by decide) htail ih)
  | case13 holes c cs _ ih =>
    obtain ⟨hfirst, hrest⟩ := List.forall_mem_cons.1 hplaces
    have hnext : Clean (if c = '\x60' then .code else .verbatim) holes := by
      split <;> exact fun _ => Place.noConfusion
    exact backtick_cons hfirst hbackslashes (ih hnext hrest (not_infix_of_cons hbackslashes))

end Runbook.Condition
