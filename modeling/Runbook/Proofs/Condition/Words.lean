import Runbook.Proofs.Condition.Quotation
import Runbook.Proofs.Condition.Vocabulary
import Runbook.Template.Interpolate
/-!
# The words of a condition

Every word among the tokens of a condition stands in its text, also when the condition is requoted
before it is scanned.

* `Leaves` — a reader of characters goes on with an end of its text;
* `Fronts`, `fronts_of_scanFront?` — what a scanner finds at the front of a text;
* `Scans`, `scans_of_scanFrom?` — how a scanner comes to its tokens; `Scans.words` — the words among
  the tokens of a text stand in it;
* `KeepsWords`, `keepsWords_requote` — requoting brings no word in;
* `wordsOf`, `wordsOf_inText` — the words of a condition.
-/

namespace Runbook.Condition

open Runbook.Text

/-! ### Readers of characters -/

/-- What a reader of characters gives has a property, and it leaves an end of its text. -/
def Leaves {α : Type} (q : α → Prop) (cs : List Char) (r : Option (α × List Char)) : Prop :=
  ∀ x rest, r = some (x, rest) → q x ∧ rest <:+ cs

namespace Leaves

variable {α β : Type} {q : α → Prop} {q' : β → Prop} {c : Char} {cs : List Char}
  {r : Option (α × List Char)}

theorem none : Leaves q cs (none : Option (α × List Char)) :=
  nofun

theorem some {x : α} {rest : List Char} (hx : q x) (h : rest <:+ cs) :
    Leaves q cs (some (x, rest)) := by
  rintro _ _ ⟨⟩
  exact ⟨hx, h⟩

theorem cons (h : Leaves q cs r) : Leaves q (c :: cs) r :=
  fun x rest hr => (h x rest hr).imp_right fun hrest => hrest.trans (List.suffix_cons c cs)

theorem bind {γ : Type} {o : Option γ} {f : γ → Option (α × List Char)}
    (h : ∀ x, Leaves q cs (f x)) : Leaves q cs (o.bind f) := by
  intro y rest hy
  obtain ⟨x, -, hx⟩ := Option.bind_eq_some_iff.1 hy
  exact h x y rest hx

theorem map {f : α × List Char → β × List Char} (h : Leaves q cs r)
    (hf : ∀ x rest, q x → q' (f (x, rest)).1 ∧ (f (x, rest)).2 = rest) :
    Leaves q' cs (r.map f) := by
  intro y rest hy
  obtain ⟨⟨x, middle⟩, hr, hx⟩ := Option.map_eq_some_iff.1 hy
  obtain ⟨hq, hmiddle⟩ := h x middle hr
  obtain ⟨hq', hsame⟩ := hf x middle hq
  rw [hx] at hq' hsame
  have hrest : rest = middle := hsame
  exact ⟨hq', hrest ▸ hmiddle⟩

end Leaves

/-- A text that goes on with one more character. -/
theorem Leaves.push {c : Char} {cs : List Char} {r : Option (List Char × List Char)}
    (h : Leaves (fun _ => True) cs r) :
    Leaves (fun _ => True) cs (r.map fun (text, rest) => (c :: text, rest)) :=
  h.map fun _ _ _ => ⟨trivial, rfl⟩

theorem leaves_readText (quote : Char) (state : TextState) (cs : List Char) :
    Leaves (fun _ => True) cs (readText quote state cs) := by
  fun_induction readText quote state cs
  case case1 => exact .none
  case case2 ihplain ih =>
    refine .bind fun d => ?_
    dsimp only
    split
    · exact .bind fun _ => ihplain.push.cons
    · exact (ih _).cons
  case case3 ih => exact ih.push.cons
  case case4 ih => exact ih.cons
  case case5 ih => exact ih.push.cons
  case case6 ih => exact ih.cons
  case case7 ih => exact ih.cons
  case case8 => exact .none
  case case9 => exact .some trivial (List.suffix_cons _ _)
  case case10 ih => exact ih.push.cons.cons
  case case11 => exact .some trivial (List.suffix_cons _ _)
  case case12 ih => exact ih.cons
  case case13 => exact .none
  case case14 ih => exact ih.cons
  case case15 ih => exact ih.push.cons

/-- The name that a token is. -/
def Token.word? : Token → Option String
  | .word w => some (String.ofList w)
  | _ => none

/-- Whether a token is a text, or a part of one. -/
def Token.isText : Token → Bool
  | .str _ | .opened _ => true
  | _ => false

theorem Token.word?_of_isText {t : Token} (h : t.isText = true) : t.word? = none := by
  cases t <;> first | rfl | cases h

theorem leaves_readVerbatim (cs : List Char) :
    Leaves (fun t => t.isText = true) cs (readVerbatim cs) := by
  have hpush : ∀ (c : Char) (t : Token) (rest : List Char), t.isText = true →
      (readVerbatim.push c (t, rest)).1.isText = true ∧
        (readVerbatim.push c (t, rest)).2 = rest := by
    intro c t rest ht
    cases t <;> first | exact ⟨rfl, rfl⟩ | cases ht
  fun_induction readVerbatim cs
  case case1 => exact .none
  case case2 => exact .some rfl (List.suffix_cons _ _)
  case case3 ih => exact (ih.map (hpush _)).cons.cons
  case case4 => exact .some rfl (List.suffix_cons _ _)
  case case5 => exact .some rfl (List.suffix_cons _ _)
  case case6 ih => exact ih.cons
  case case7 ih => exact (ih.map (hpush _)).cons

theorem numeralRun_suffix (isDigit : Char → Bool) (signed : Bool) (cs : List Char) :
    (numeralRun isDigit signed cs).2 <:+ cs := by
  fun_induction numeralRun isDigit signed cs with
  | case1 | case6 | case9 | case10 => exact List.suffix_rfl
  | case2 _ _ _ _ ih => exact ih.trans (List.suffix_cons _ _)
  | case3 _ _ _ ih => exact ih.trans (List.suffix_cons _ _)
  | case4 _ _ _ _ _ _ ih => exact ih.trans (List.suffix_cons _ _)
  | case5 _ _ _ _ _ _ _ ih => exact ih.trans (List.suffix_cons _ _)
  | case7 _ _ _ _ _ _ _ _ ih => exact ih.trans (List.suffix_cons _ _)
  | case8 _ _ _ _ _ _ _ _ _ _ ih => exact ih.trans (List.suffix_cons _ _)

/-- Whether a token is a number. -/
def Token.isNumber : Token → Bool
  | .int _ | .double _ => true
  | _ => false

theorem Token.word?_of_isNumber {t : Token} (h : t.isNumber = true) : t.word? = none := by
  cases t <;> first | rfl | cases h

theorem isNumber_decimalToken {cs : List Char} {t : Token} (h : decimalToken? cs = some t) :
    t.isNumber = true := by
  unfold decimalToken? at h
  split at h
  · exact Option.some.inj h ▸ rfl
  · obtain ⟨d, -, rfl⟩ := Option.map_eq_some_iff.1 h
    rfl

theorem leaves_readNumber (negative : Bool) (cs : List Char) :
    Leaves (fun t => t.isNumber = true) cs (readNumber negative cs) := by
  have hdecimal : Leaves (fun t => t.isNumber = true) cs (readNumber.decimal negative cs) := by
    intro t rest h
    obtain ⟨found, hfound, heq⟩ := Option.map_eq_some_iff.1 h
    obtain ⟨rfl, rfl⟩ := Prod.mk.inj heq
    exact ⟨isNumber_decimalToken hfound, numeralRun_suffix _ _ _⟩
  unfold readNumber
  split
  · split
    · intro t rest h
      obtain ⟨n, -, heq⟩ := Option.map_eq_some_iff.1 h
      obtain ⟨rfl, rfl⟩ := Prod.mk.inj heq
      exact ⟨rfl, ((numeralRun_suffix _ _ _).trans (List.suffix_cons _ _)).trans
        (List.suffix_cons _ _)⟩
    · exact hdecimal
  · exact hdecimal

theorem dropComment_suffix (level : Nat) (cs : List Char) : dropComment level cs <:+ cs := by
  fun_induction dropComment level cs with
  | case1 => exact List.suffix_rfl
  | case2 _ _ ih => exact ih.trans ((List.suffix_cons _ _).trans (List.suffix_cons _ _))
  | case3 => exact (List.suffix_cons _ _).trans (List.suffix_cons _ _)
  | case4 _ _ _ ih => exact ih.trans ((List.suffix_cons _ _).trans (List.suffix_cons _ _))
  | case5 _ _ _ _ _ ih => exact ih.trans (List.suffix_cons _ _)

theorem leaves_readSymbol (cs : List Char) : Leaves (fun _ => True) cs (readSymbol cs) := by
  intro s rest h
  unfold readSymbol at h
  split at h
  · cases h
  · obtain ⟨_, -, hs⟩ := List.exists_of_findSome?_eq_some h
    obtain ⟨_, hrest, heq⟩ := Option.map_eq_some_iff.1 hs
    obtain ⟨-, rfl⟩ := Prod.mk.inj heq
    rw [Text.dropStart?_eq_some hrest]
    exact ⟨trivial, List.suffix_append _ _⟩

theorem readNotIn_suffix {cs rest : List Char} (h : readNotIn cs = some rest) : rest <:+ cs := by
  unfold readNotIn at h
  split at h
  · obtain ⟨-, heq⟩ := Option.ite_none_left_eq_some.1 h
    obtain rfl := Option.some.inj heq
    exact ((List.suffix_cons _ _).trans (List.suffix_cons _ _)).trans (List.suffix_cons _ _)
  · cases h

/-! ### Words of texts -/

/-- A name stands in a text. -/
def InText (cs : List Char) (name : String) : Prop :=
  name.toList <:+: cs ∧ ∀ c ∈ name.toList, isIdentChar c = true

theorem InText.of_suffix {cs rest : List Char} {name : String} (h : InText rest name)
    (hrest : rest <:+ cs) : InText cs name :=
  ⟨h.1.trans hrest.isInfix, h.2⟩

theorem inText_of_takeWhile {cs : List Char} {name : String}
    (h : name.toList = cs.takeWhile isIdentChar) : InText cs name := by
  rw [InText, h]
  exact ⟨(List.takeWhile_prefix _).isInfix,
    fun c hc => List.all_eq_true.1 List.all_takeWhile c hc⟩

/-- What the front of a text says about it: a word is all up to the first character that no name
holds. -/
def Scanned.Front (cs : List Char) : Scanned → Prop
  | .blank rest => rest <:+ cs
  | .token t rest => (∀ name ∈ t.word?, name.toList = cs.takeWhile isIdentChar) ∧ rest <:+ cs

/-- What a scanner finds at the front of a text: one case for each thing that may stand there. -/
inductive Fronts : List Char → Scanned → Prop
  | blank {c : Char} {rest : List Char} (hblank : isBlank c = true) :
    Fronts (c :: rest) (.blank rest)
  | lineComment (rest : List Char) :
    Fronts ('/' :: '/' :: rest) (.blank (('/' :: rest).dropWhile (· != '\n')))
  | blockComment (rest : List Char) : Fronts ('/' :: '*' :: rest) (.blank (dropComment 1 rest))
  | text {text rest after : List Char} (h : readText '"' .plain rest = some (text, after)) :
    Fronts ('"' :: rest) (.token (.str text) after)
  | char {c : Char} {rest after : List Char} (h : readText '\'' .plain rest = some ([c], after)) :
    Fronts ('\'' :: rest) (.token (.char c) after)
  | verbatim {t : Token} {rest after : List Char} (h : readVerbatim rest = some (t, after)) :
    Fronts ('\x60' :: rest) (.token t after)
  | number {t : Token} {cs after : List Char} (h : readNumber false cs = some (t, after)) :
    Fronts cs (.token t after)
  | negative {t : Token} {rest after : List Char} (h : readNumber true rest = some (t, after)) :
    Fronts ('-' :: rest) (.token t after)
  | word {cs : List Char} (h : isWord (cs.takeWhile isIdentChar) = true) :
    Fronts cs (.token (.word (cs.takeWhile isIdentChar)) (cs.dropWhile isIdentChar))
  | notIn {cs after : List Char} (h : readNotIn cs = some after) :
    Fronts cs (.token (.symbol "!in") after)
  | symbol {s : String} {cs after : List Char} (h : readSymbol cs = some (s, after))
    (hcomment : ∀ rest, cs = '/' :: rest → rest.head? ≠ some '/' ∧ rest.head? ≠ some '*') :
    Fronts cs (.token (.symbol s) after)

/-- A scanner finds nothing else at the front of a text. -/
theorem fronts_of_scanFront? {signed : Bool} {cs : List Char} {front : Scanned}
    (h : scanFront? signed cs = some front) : Fronts cs front := by
  cases cs with
  | nil => cases h
  | cons c rest =>
  unfold scanFront? at h
  obtain ⟨hblank, h⟩ | ⟨-, h⟩ := ite_eq_iff.1 h
  · exact Option.some.inj h ▸ .blank hblank
  obtain ⟨⟨rfl, hnext⟩, h⟩ | ⟨hline, h⟩ := ite_eq_iff.1 h
  · obtain ⟨after, rfl⟩ := List.head?_eq_some_iff.1 hnext
    exact Option.some.inj h ▸ .lineComment after
  obtain ⟨⟨rfl, hnext⟩, h⟩ | ⟨hblock, h⟩ := ite_eq_iff.1 h
  · obtain ⟨after, rfl⟩ := List.head?_eq_some_iff.1 hnext
    exact Option.some.inj h ▸ .blockComment after
  obtain ⟨rfl, h⟩ | ⟨-, h⟩ := ite_eq_iff.1 h
  · obtain ⟨⟨text, after⟩, hread, rfl⟩ := Option.map_eq_some_iff.1 h
    exact .text hread
  obtain ⟨rfl, h⟩ | ⟨-, h⟩ := ite_eq_iff.1 h
  · obtain ⟨⟨text, after⟩, hread, hone⟩ := Option.bind_eq_some_iff.1 h
    dsimp only at hone
    split at hone
    · exact Option.some.inj hone ▸ .char hread
    · cases hone
  obtain ⟨rfl, h⟩ | ⟨-, h⟩ := ite_eq_iff.1 h
  · obtain ⟨⟨t, after⟩, hread, rfl⟩ := Option.map_eq_some_iff.1 h
    exact .verbatim hread
  obtain ⟨-, h⟩ | ⟨-, h⟩ := ite_eq_iff.1 h
  · obtain ⟨⟨t, after⟩, hread, rfl⟩ := Option.map_eq_some_iff.1 h
    exact .number hread
  obtain ⟨hminus, h⟩ | ⟨-, h⟩ := ite_eq_iff.1 h
  · obtain ⟨⟨t, after⟩, hread, rfl⟩ := Option.map_eq_some_iff.1 h
    exact hminus.1 ▸ .negative hread
  obtain ⟨-, h⟩ | ⟨-, h⟩ := ite_eq_iff.1 h
  · obtain ⟨hword, heq⟩ := Option.ite_none_right_eq_some.1 h
    exact Option.some.inj heq ▸ .word hword
  split at h
  · next hnot => exact Option.some.inj h ▸ .notIn hnot
  · obtain ⟨⟨s, after⟩, hread, rfl⟩ := Option.map_eq_some_iff.1 h
    refine .symbol hread fun tail heq => ?_
    obtain ⟨rfl, rfl⟩ := List.cons.inj heq
    exact ⟨fun hnext => hline ⟨rfl, hnext⟩, fun hnext => hblock ⟨rfl, hnext⟩⟩

theorem front_of_wordless {cs rest : List Char} {t : Token} (ht : t.word? = none)
    (hrest : rest <:+ cs) : (Scanned.token t rest).Front cs :=
  ⟨fun _ hname => absurd (ht ▸ hname) (Option.not_mem_none _), hrest⟩

/-- The front of a text says what stands there. -/
theorem Fronts.front {cs : List Char} {front : Scanned} (h : Fronts cs front) :
    front.Front cs := by
  cases h with
  | blank => exact List.suffix_cons _ _
  | lineComment rest =>
    exact (List.dropWhile_suffix _).trans (List.suffix_cons _ _)
  | blockComment rest =>
    exact ((dropComment_suffix 1 rest).trans (List.suffix_cons _ _)).trans (List.suffix_cons _ _)
  | text h => exact front_of_wordless rfl ((leaves_readText _ _ _).cons _ _ h).2
  | char h => exact front_of_wordless rfl ((leaves_readText _ _ _).cons _ _ h).2
  | verbatim h =>
    obtain ⟨htext, hrest⟩ := (leaves_readVerbatim _).cons _ _ h
    exact front_of_wordless (Token.word?_of_isText htext) hrest
  | number h =>
    obtain ⟨hnumber, hrest⟩ := leaves_readNumber _ _ _ _ h
    exact front_of_wordless (Token.word?_of_isNumber hnumber) hrest
  | negative h =>
    obtain ⟨hnumber, hrest⟩ := (leaves_readNumber _ _).cons _ _ h
    exact front_of_wordless (Token.word?_of_isNumber hnumber) hrest
  | word =>
    refine ⟨?_, List.dropWhile_suffix _⟩
    rintro _ ⟨⟩
    exact String.toList_ofList
  | notIn h => exact front_of_wordless rfl (readNotIn_suffix h)
  | symbol h => exact front_of_wordless rfl (leaves_readSymbol _ _ _ h).2

theorem scanFront?_front {signed : Bool} {cs : List Char} {front : Scanned}
    (h : scanFront? signed cs = some front) : front.Front cs :=
  (fronts_of_scanFront? h).front

theorem Words.cons {p : String → Prop} {t : Token} {ts : List Token}
    (ht : ∀ name ∈ t.word?, p name) (hts : Words p ts) : Words p (t :: ts) := by
  intro w hw
  rcases List.mem_cons.1 hw with rfl | hw
  · exact ht _ rfl
  · exact hts w hw

theorem Words.mono {p q : String → Prop} {ts : List Token} (h : Words p ts)
    (hpq : ∀ name, p name → q name) : Words q ts :=
  fun w hw => hpq _ (h w hw)

/-- The open braces behind a token that ends no expression in a text. -/
def Token.depthsBehind (depths : List Nat) : Token → List Nat
  | .opened _ => 0 :: depths
  | .symbol s =>
    if s = "\x7b" ∨ s = "\x23\x7b" then scanFrom?.deeper depths
    else if s = "\x7d" then scanFrom?.shallower depths
    else depths
  | _ => depths

/-- How a scanner comes to its tokens: blanks and comments are passed over, and the brace that ends
an expression in a text goes on with that text. -/
inductive Scans : (depths : List Nat) → List Char → List Token → Prop
  | done (depths : List Nat) : Scans depths [] []
  | blank {signed : Bool} {depths : List Nat} {cs rest : List Char} {ts : List Token}
    (hfront : scanFront? signed cs = some (.blank rest)) (hrest : Scans depths rest ts) :
    Scans depths cs ts
  | token {signed : Bool} {depths : List Nat} {cs rest : List Char} {t : Token} {ts : List Token}
    (hfront : scanFront? signed cs = some (.token t rest))
    (hopen : t = .symbol "\x7d" → depths.head? ≠ some 1)
    (hrest : Scans (t.depthsBehind depths) rest ts) : Scans depths cs (t :: ts)
  | close {signed : Bool} {outer : List Nat} {cs rest after : List Char} {text : Token}
    {ts : List Token} (hfront : scanFront? signed cs = some (.token (.symbol "\x7d") rest))
    (htext : readVerbatim rest = some (text, after))
    (hrest : Scans (text.depthsBehind outer) after ts) :
    Scans (1 :: outer) cs (.symbol "\x7d" :: text :: ts)

/-- A scanner comes to its tokens in no other way. -/
theorem scans_of_scanFrom? {fuel : Nat} {signed : Bool} {depths : List Nat} {cs : List Char}
    {tokens : List Token} (h : scanFrom? fuel signed depths cs = some tokens) :
    Scans depths cs tokens := by
  induction fuel generalizing signed depths cs tokens with
  | zero =>
    cases cs with
    | nil =>
      obtain rfl := Option.some.inj h
      exact .done depths
    | cons c cs => cases h
  | succ fuel ih =>
    by_cases hnil : cs = []
    · subst hnil
      obtain rfl := Option.some.inj h
      exact .done depths
    rw [scanFrom?.eq_3 _ _ _ _ hnil] at h
    obtain ⟨front, hfront, h⟩ := Option.bind_eq_some_iff.1 h
    split at h
    · exact .blank hfront (ih h)
    · obtain ⟨ts, hts, rfl⟩ := Option.map_eq_some_iff.1 h
      exact .token hfront Token.noConfusion (ih hts)
    · next t rest hopened =>
      split at h
      · next hbrace =>
        obtain ⟨ts, hts, rfl⟩ := Option.map_eq_some_iff.1 h
        rcases hbrace with rfl | rfl
        · exact .token hfront (fun heq => absurd heq (by decide)) (ih hts)
        · exact .token hfront (fun heq => absurd heq (by decide)) (ih hts)
      split at h
      · next hclose =>
        subst hclose
        split at h
        · obtain ⟨⟨text, after⟩, hread, h⟩ := Option.bind_eq_some_iff.1 h
          dsimp only at h
          split at h
          · obtain ⟨ts, hts, rfl⟩ := Option.map_eq_some_iff.1 h
            exact .close hfront hread (ih hts)
          · next hwhole =>
            obtain ⟨ts, hts, rfl⟩ := Option.map_eq_some_iff.1 h
            have htext := (leaves_readVerbatim _ text after hread).1
            cases text with
            | str s => exact .close hfront hread (ih hts)
            | opened s => exact absurd rfl (hwhole s)
            | _ => cases htext
        · next hdepths =>
          obtain ⟨ts, hts, rfl⟩ := Option.map_eq_some_iff.1 h
          refine .token hfront (fun _ hhead => ?_) (ih hts)
          obtain ⟨outer, houter⟩ := List.head?_eq_some_iff.1 hhead
          exact hdepths outer houter
      · next hbrace hclose =>
        obtain ⟨ts, hts, rfl⟩ := Option.map_eq_some_iff.1 h
        have hdepths : t.depthsBehind depths = depths := by
          cases t with
          | opened s => exact absurd rfl (hopened s)
          | symbol s =>
            have hsymbol : ∀ s', Token.symbol s = .symbol s' ↔ s = s' :=
              fun _ => ⟨Token.symbol.inj, congrArg _⟩
            rw [hsymbol, hsymbol] at hbrace
            rw [hsymbol] at hclose
            rw [Token.depthsBehind, if_neg hbrace, if_neg hclose]
          | _ => rfl
        refine .token hfront (fun heq => absurd heq hclose) ?_
        rw [hdepths]
        exact ih hts

/-- **The words among the tokens of a text stand in it.** -/
theorem Scans.words {depths : List Nat} {cs : List Char} {tokens : List Token}
    (h : Scans depths cs tokens) : Words (InText cs) tokens := by
  induction h with
  | done => exact Words.nil
  | blank hfront _ ih => exact ih.mono fun _ hname => hname.of_suffix (scanFront?_front hfront)
  | token hfront _ _ ih =>
    obtain ⟨hword, hrest⟩ := scanFront?_front hfront
    exact Words.cons (fun name hname => inText_of_takeWhile (hword name hname))
      (ih.mono fun _ hname => hname.of_suffix hrest)
  | close hfront htext _ ih =>
    obtain ⟨-, hrest⟩ := scanFront?_front hfront
    obtain ⟨hpart, hafter⟩ := leaves_readVerbatim _ _ _ htext
    refine Words.cons nofun (Words.cons ?_ (ih.mono fun _ hname =>
      hname.of_suffix (hafter.trans hrest)))
    intro name hname
    rw [Token.word?_of_isText hpart] at hname
    cases hname

/-! ### Words of conditions -/

/-- The runs of name characters in one text are in another one, those at its front at the front. -/
def KeepsWords (xs cs : List Char) : Prop :=
  ∀ w : List Char, (∀ c ∈ w, isIdentChar c = true) →
    (w <+: xs → w <+: cs) ∧ (w <:+: xs → w <:+: cs)

namespace KeepsWords

variable {xs cs : List Char} {c : Char}

theorem nil : KeepsWords [] cs := by
  intro w _
  constructor <;> intro h
  · rw [List.prefix_nil.1 h]
    exact List.nil_prefix
  · rw [List.infix_nil.1 h]
    exact List.nil_infix

theorem cons (h : KeepsWords xs cs) : KeepsWords (c :: xs) (c :: cs) := by
  have hfront : ∀ w : List Char, (∀ d ∈ w, isIdentChar d = true) → w <+: c :: xs →
      w <+: c :: cs := by
    intro w hw hprefix
    cases w with
    | nil => exact List.nil_prefix
    | cons d w =>
      obtain ⟨rfl, hrest⟩ := List.cons_prefix_cons.1 hprefix
      have hw' : ∀ e ∈ w, isIdentChar e = true := fun e he => hw e (List.mem_cons_of_mem d he)
      exact List.cons_prefix_cons.2 ⟨rfl, (h w hw').1 hrest⟩
  intro w hw
  refine ⟨hfront w hw, fun hpart => ?_⟩
  rcases List.infix_cons_iff.1 hpart with hprefix | hpart
  · exact (hfront w hw hprefix).isInfix
  · exact List.infix_cons_iff.2 (.inr ((h w hw).2 hpart))

/-- A character that no name holds may come in, and characters may go. -/
theorem insert (h : KeepsWords xs cs) (hc : isIdentChar c = false) (front : List Char) :
    KeepsWords (c :: xs) (front ++ cs) := by
  intro w hw
  have hnil : w <+: c :: xs → w = [] := by
    intro hprefix
    cases w with
    | nil => rfl
    | cons d w =>
      obtain ⟨rfl, -⟩ := List.cons_prefix_cons.1 hprefix
      rw [hw d List.mem_cons_self] at hc
      cases hc
  refine ⟨fun hprefix => hnil hprefix ▸ List.nil_prefix, fun hpart => ?_⟩
  rcases List.infix_cons_iff.1 hpart with hprefix | hpart
  · exact hnil hprefix ▸ List.nil_infix
  · exact ((h w hw).2 hpart).trans (List.suffix_append front cs).isInfix

end KeepsWords

/-- **Requoting brings no word in.** -/
theorem keepsWords_requote (quote : Option Char) (cs : List Char) :
    KeepsWords (requote quote cs) cs := by
  fun_induction requote quote cs with
  | case1 => exact .nil
  | case2 cs ih => exact ih.insert rfl ['\'']
  | case3 c cs _ _ ih => exact ih.cons
  | case4 c cs _ _ ih => exact ih.cons
  | case5 => exact KeepsWords.nil.cons
  | case6 q c cs hsingle ih =>
    rw [hsingle.2]
    exact ih.insert rfl ['\\', '\'']
  | case7 q c cs _ ih => exact ih.cons.cons
  | case8 q cs _ _ ih =>
    split
    · exact ih.insert rfl [q]
    · exact ih.cons
  | case9 q c cs _ _ _ hsingle ih =>
    rw [hsingle.2]
    exact (ih.insert rfl ['"']).insert rfl []
  | case10 q c cs _ _ _ _ ih => exact ih.cons

/-- The words of a condition: its names, and those that the language has a meaning for. -/
def wordsOf (expression : String) : List String :=
  ((scan? (doubleQuoted expression.toList)).getD []).filterMap Token.word?

/-- What an expression is read from has the words of its condition. -/
theorem words_wordsOf {expression : String} {tokens : List Token}
    (h : scan? (doubleQuoted expression.toList) = some tokens) :
    Words (· ∈ wordsOf expression) tokens := by
  intro w hw
  rw [wordsOf, h]
  exact List.mem_filterMap.2 ⟨.word w, hw, rfl⟩

/-- **The words of a condition stand in its text.** -/
theorem wordsOf_inText {expression name : String} (h : name ∈ wordsOf expression) :
    name.toList <:+: expression.toList := by
  unfold wordsOf at h
  cases htokens : scan? (doubleQuoted expression.toList) with
  | none =>
    rw [htokens] at h
    cases h
  | some tokens =>
    rw [htokens] at h
    obtain ⟨t, ht, hname⟩ := List.mem_filterMap.1 h
    have hword : InText (doubleQuoted expression.toList) name := by
      cases t with
      | word w => exact Option.some.inj hname ▸ (scans_of_scanFrom? htokens).words w ht
      | _ => cases hname
    exact (keepsWords_requote none expression.toList name.toList hword.2).2 hword.1

end Runbook.Condition
