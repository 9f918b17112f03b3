import Runbook.Condition.ExprReader
/-!
# The words of an expression

An expression mentions no variable and calls no function whose name is not among the words that it
was read from.

* `Expr.Within` — the variables and the called functions of an expression have a property;
* `Yields` — what a reader gives has a property, and the words behind it have theirs;
  `Yields.bind`, `Yields.map` — readers one after another;
* `Readers` — all readers with some fuel give what is within the words of their tokens;
  `readers` — so they do with any fuel;
* `Expr.within_of_ofChars?` — the same for a whole text.
-/

namespace Runbook.Condition

variable {p : String → Prop}

/-! ### Words within expressions -/

mutual

/-- The variables and the called functions of an expression have a property. -/
def Expr.Within (p : String → Prop) : Expr → Prop
  | .name n => p n
  | .joined parts => AllWithin p parts
  | .list items => AllWithin p items
  | .record _ values => AllWithin p values
  | .signed _ e => e.Within p
  | .binary _ lhs rhs => lhs.Within p ∧ rhs.Within p
  | .member _ item container => item.Within p ∧ container.Within p
  | .and lhs rhs => lhs.Within p ∧ rhs.Within p
  | .or lhs rhs => lhs.Within p ∧ rhs.Within p
  | .coalesce lhs rhs => lhs.Within p ∧ rhs.Within p
  | .call name args => p name ∧ AllWithin p args
  | .qualified args => AllWithin p args
  | .chain root links => root.Within p ∧ LinksWithin p links
  | .cond c yes no => c.Within p ∧ yes.Within p ∧ no.Within p
  | .choose subject cases otherwise =>
    subject.Within p ∧ CasesWithin p cases ∧ otherwise.Within p
  | .closure _ body => body.Within p
  | .unit | .bool _ | .int _ | .double _ | .char _ | .str _ => True
termination_by structural e => e

/-- The same for several expressions. -/
def AllWithin (p : String → Prop) : List Expr → Prop
  | [] => True
  | e :: rest => e.Within p ∧ AllWithin p rest
termination_by structural es => es

/-- The same for the steps of a chain. -/
def LinksWithin (p : String → Prop) : List Link → Prop
  | [] => True
  | link :: rest => link.Within p ∧ LinksWithin p rest
termination_by structural links => links

/-- The same for one step. -/
def Link.Within (p : String → Prop) : Link → Prop
  | .property _ _ => True
  | .subscript _ index => index.Within p
  | .method _ _ args => AllWithin p args
termination_by structural link => link

/-- The same for the cases of a choice. -/
def CasesWithin (p : String → Prop) : List Choice → Prop
  | [] => True
  | c :: rest => c.Within p ∧ CasesWithin p rest
termination_by structural cases => cases

/-- The same for one case. -/
def Choice.Within (p : String → Prop) : Choice → Prop
  | .mk values guard result => AllWithin p values ∧ guard.Within p ∧ result.Within p
termination_by structural c => c

end

mutual

/-- The variables that an expression mentions have the property. -/
theorem Expr.Within.names : (e : Expr) → e.Within p → ∀ n ∈ e.names, p n
  | .name n, h => by
    rintro n hn
    rwa [List.mem_singleton.1 hn]
  | .joined parts, h => AllWithin.names parts h
  | .list items, h => AllWithin.names items h
  | .record _ values, h => AllWithin.names values h
  | .signed _ e, h => Expr.Within.names e h
  | .binary _ lhs rhs, h =>
    List.forall_mem_append.2 ⟨Expr.Within.names lhs h.1, Expr.Within.names rhs h.2⟩
  | .member _ item container, h =>
    List.forall_mem_append.2 ⟨Expr.Within.names item h.1, Expr.Within.names container h.2⟩
  | .and lhs rhs, h =>
    List.forall_mem_append.2 ⟨Expr.Within.names lhs h.1, Expr.Within.names rhs h.2⟩
  | .or lhs rhs, h =>
    List.forall_mem_append.2 ⟨Expr.Within.names lhs h.1, Expr.Within.names rhs h.2⟩
  | .coalesce lhs rhs, h =>
    List.forall_mem_append.2 ⟨Expr.Within.names lhs h.1, Expr.Within.names rhs h.2⟩
  | .call _ args, h => AllWithin.names args h.2
  | .qualified args, h => AllWithin.names args h
  | .chain root links, h =>
    List.forall_mem_append.2 ⟨Expr.Within.names root h.1, LinksWithin.names links h.2⟩
  | .cond c yes no, h =>
    List.forall_mem_append.2 ⟨Expr.Within.names c h.1,
      List.forall_mem_append.2 ⟨Expr.Within.names yes h.2.1, Expr.Within.names no h.2.2⟩⟩
  | .choose subject cases otherwise, h =>
    List.forall_mem_append.2 ⟨Expr.Within.names subject h.1,
      List.forall_mem_append.2 ⟨CasesWithin.names cases h.2.1,
        Expr.Within.names otherwise h.2.2⟩⟩
  | .closure _ body, h => fun n hn => Expr.Within.names body h n (List.mem_filter.1 hn).1
  | .unit, _ | .bool _, _ | .int _, _ | .double _, _ | .char _, _ | .str _, _ => nofun
termination_by structural e => e

theorem AllWithin.names : (es : List Expr) → AllWithin p es → ∀ n ∈ Expr.namesOfAll es, p n
  | [], _ => nofun
  | e :: rest, h =>
    List.forall_mem_append.2 ⟨Expr.Within.names e h.1, AllWithin.names rest h.2⟩
termination_by structural es => es

theorem LinksWithin.names : (links : List Link) → LinksWithin p links →
    ∀ n ∈ Expr.namesOfLinks links, p n
  | [], _ => nofun
  | link :: rest, h =>
    List.forall_mem_append.2 ⟨Link.Within.names link h.1, LinksWithin.names rest h.2⟩
termination_by structural links => links

theorem Link.Within.names : (link : Link) → link.Within p → ∀ n ∈ Expr.namesOfLink link, p n
  | .property _ _, _ => nofun
  | .subscript _ index, h => Expr.Within.names index h
  | .method _ _ args, h => AllWithin.names args h
termination_by structural link => link

theorem CasesWithin.names : (cases : List Choice) → CasesWithin p cases →
    ∀ n ∈ Expr.namesOfCases cases, p n
  | [], _ => nofun
  | c :: rest, h =>
    List.forall_mem_append.2 ⟨Choice.Within.names c h.1, CasesWithin.names rest h.2⟩
termination_by structural cases => cases

theorem Choice.Within.names : (c : Choice) → c.Within p → ∀ n ∈ Expr.namesOfCase c, p n
  | .mk values guard result, h =>
    List.forall_mem_append.2 ⟨AllWithin.names values h.1,
      List.forall_mem_append.2 ⟨Expr.Within.names guard h.2.1, Expr.Within.names result h.2.2⟩⟩
termination_by structural c => c

end

theorem allWithin_append {es fs : List Expr} :
    AllWithin p (es ++ fs) ↔ AllWithin p es ∧ AllWithin p fs := by
  induction es with
  | nil => simp [AllWithin]
  | cons e es ih => rw [List.cons_append, AllWithin, AllWithin, ih, and_assoc]

theorem linksWithin_concat {links : List Link} {link : Link} (h : LinksWithin p links)
    (hlink : link.Within p) : LinksWithin p (links ++ [link]) := by
  induction links with
  | nil => exact ⟨hlink, trivial⟩
  | cons first rest ih => exact ⟨h.1, ih h.2⟩

/-! ### Parts put together -/

theorem Infix.within_of_join? {op : Infix} {lhs rhs joined : Expr}
    (h : op.join? lhs rhs = some joined) (hlhs : lhs.Within p) (hrhs : rhs.Within p) :
    joined.Within p := by
  have hboth : lhs.Within p ∧ rhs.Within p := ⟨hlhs, hrhs⟩
  cases op with
  | operator op => exact Option.some.inj h ▸ hboth
  | coalesce => exact Option.some.inj h ▸ hboth
  | member negated => exact Option.some.inj h ▸ hboth
  | and =>
    obtain ⟨-, h⟩ := Option.ite_none_right_eq_some.1 h
    exact Option.some.inj h ▸ hboth
  | or =>
    obtain ⟨-, h⟩ := Option.ite_none_right_eq_some.1 h
    exact Option.some.inj h ▸ hboth

theorem Expr.within_of_withSign? {s : Sign} {e signed : Expr} (h : e.withSign? s = some signed)
    (he : e.Within p) : signed.Within p := by
  unfold Expr.withSign? at h
  split at h
  · split at h <;> exact Option.some.inj h ▸ trivial
  · exact Option.some.inj h ▸ trivial
  · exact Option.some.inj h ▸ trivial
  · exact Option.some.inj h ▸ trivial
  · exact Option.some.inj h ▸ he

theorem Expr.Within.extend {e : Expr} {link : Link} (he : e.Within p) (hlink : link.Within p) :
    (e.extend link).Within p := by
  unfold Expr.extend
  split
  · exact ⟨he.1, linksWithin_concat he.2 hlink⟩
  · exact ⟨he, hlink, trivial⟩

/-! ### Readings -/

/-- The words among tokens have a property. -/
def Words (p : String → Prop) (tokens : List Token) : Prop :=
  ∀ w, .word w ∈ tokens → p (String.ofList w)

theorem Words.nil : Words p [] :=
  fun _ hw => absurd hw List.not_mem_nil

theorem Words.tail {t : Token} {rest : List Token} (h : Words p (t :: rest)) : Words p rest :=
  fun w hw => h w (List.mem_cons_of_mem t hw)

theorem Words.head {w : List Char} {rest : List Token} (h : Words p (.word w :: rest)) :
    p (String.ofList w) :=
  h w List.mem_cons_self

/-- What a reader gives has a property, and the words behind it have theirs. -/
def Yields (p : String → Prop) {α : Type} (q : α → Prop) (r : Reading α) : Prop :=
  ∀ x rest, r = some (x, rest) → q x ∧ Words p rest

namespace Yields

variable {α β : Type} {q : α → Prop} {q' : β → Prop} {r : Reading α}

theorem none : Yields p q (none : Reading α) :=
  nofun

theorem some {x : α} {rest : List Token} (hx : q x) (hrest : Words p rest) :
    Yields p q (some (x, rest)) := by
  rintro _ _ ⟨⟩
  exact ⟨hx, hrest⟩

theorem bind {f : α × List Token → Reading β} (h : Yields p q r)
    (hf : ∀ x rest, q x → Words p rest → Yields p q' (f (x, rest))) :
    Yields p q' (r.bind f) := by
  intro y rest hy
  obtain ⟨⟨x, middle⟩, hr, hy⟩ := Option.bind_eq_some_iff.1 hy
  obtain ⟨hx, hmiddle⟩ := h x middle hr
  exact hf x middle hx hmiddle y rest hy

theorem map {f : α × List Token → β × List Token} (h : Yields p q r)
    (hf : ∀ x rest, q x → Words p rest → q' (f (x, rest)).1 ∧ Words p (f (x, rest)).2) :
    Yields p q' (r.map f) := by
  rw [Option.map_eq_bind]
  exact h.bind fun x rest hx hrest => Yields.some (hf x rest hx hrest).1 (hf x rest hx hrest).2

theorem guard {c : Prop} [Decidable c] {s : Reading α} (hr : c → Yields p q r)
    (hs : ¬c → Yields p q s) : Yields p q (if c then r else s) := by
  split
  · next h => exact hr h
  · next h => exact hs h

end Yields

/-- Behind a mark, the words are words of the tokens. -/
theorem Words.of_readMark {s : String} {tokens rest : List Token} (h : Words p tokens)
    (hmark : readMark s tokens = some rest) : Words p rest := by
  cases tokens with
  | nil => cases hmark
  | cons t tokens =>
    obtain ⟨-, heq⟩ := Option.ite_none_right_eq_some.1 hmark
    exact Option.some.inj heq ▸ h.tail

theorem Yields.bind_mark {α : Type} {q : α → Prop} {s : String} {tokens : List Token}
    {f : List Token → Reading α} (h : Words p tokens)
    (hf : ∀ rest, Words p rest → Yields p q (f rest)) :
    Yields p q ((readMark s tokens).bind f) := by
  intro x rest hx
  obtain ⟨middle, hmark, hx⟩ := Option.bind_eq_some_iff.1 hx
  exact hf middle (h.of_readMark hmark) x rest hx

theorem Yields.map_mark {α : Type} {q : α → Prop} {s : String} {tokens : List Token}
    {x : α} (h : Words p tokens) (hx : q x) :
    Yields p q ((readMark s tokens).map fun rest => (x, rest)) := by
  rw [Option.map_eq_bind]
  exact Yields.bind_mark h fun rest hrest => Yields.some hx hrest

theorem yields_readKey {tokens : List Token} (h : Words p tokens) :
    Yields p (fun _ => True) (readKey tokens) := by
  unfold readKey
  split
  · exact Yields.guard (fun _ => Yields.some trivial h.tail) fun _ => Yields.none
  · exact Yields.some trivial h.tail
  · exact Yields.none

theorem yields_readParams {tokens : List Token} (h : Words p tokens) :
    Yields p (fun _ => True) (readParams tokens) := by
  fun_induction readParams tokens with
  | case1 rest => exact Yields.some trivial h.tail
  | case2 => exact Yields.none
  | case3 => exact Yields.none
  | case4 w rest => exact Yields.some trivial h.tail.tail
  | case5 w rest _ _ _ ih => exact (ih h.tail.tail).map fun _ _ _ hrest => ⟨trivial, hrest⟩
  | case6 => exact Yields.none
  | case7 => exact Yields.none

/-! ### Readers -/

/-- All readers with some fuel give what is within the words of their tokens. -/
structure Readers (p : String → Prop) (fuel : Nat) : Prop where
  expr : ∀ level tokens, Words p tokens →
    Yields p (Expr.Within p) (readExpr fuel level tokens)
  operators : ∀ level parent lhs tokens, lhs.Within p → Words p tokens →
    Yields p (Expr.Within p) (readOperators fuel level parent lhs tokens)
  unary : ∀ level tokens, Words p tokens →
    Yields p (Expr.Within p) (readUnary fuel level tokens)
  sign : ∀ level s tokens, Words p tokens →
    Yields p (Expr.Within p) (readUnary.sign fuel level s tokens)
  chain : ∀ level e tokens, e.Within p → Words p tokens →
    Yields p (Expr.Within p) (readPostfix fuel level e tokens)
  step : ∀ level e optional tokens, e.Within p → Words p tokens →
    Yields p (Expr.Within p) (readStep fuel level e optional tokens)
  subscript : ∀ level e optional tokens, e.Within p → Words p tokens →
    Yields p (Expr.Within p) (readSubscript fuel level e optional tokens)
  primary : ∀ level tokens, Words p tokens →
    Yields p (Expr.Within p) (readPrimary fuel level tokens)
  named : ∀ level name tokens, p name → Words p tokens →
    Yields p (Expr.Within p) (readNamed fuel level name tokens)
  qualified : ∀ level tokens, Words p tokens →
    Yields p (Expr.Within p) (readQualified fuel level tokens)
  parts : ∀ level tokens, Words p tokens →
    Yields p (AllWithin p) (readParts fuel level tokens)
  block : ∀ level tokens, Words p tokens →
    Yields p (Expr.Within p) (readBlock fuel level tokens)
  cond : ∀ level tokens, Words p tokens →
    Yields p (Expr.Within p) (readIf fuel level tokens)
  switch : ∀ level tokens, Words p tokens →
    Yields p (Expr.Within p) (readSwitch fuel level tokens)
  cases : ∀ level tokens, Words p tokens →
    Yields p (fun found => CasesWithin p found.1 ∧ ∀ e ∈ found.2, e.Within p)
      (readCases fuel level tokens)
  caseValues : ∀ level tokens, Words p tokens →
    Yields p (AllWithin p) (readCaseValues fuel level tokens)
  result : ∀ level tokens, Words p tokens →
    Yields p (Expr.Within p) (readResult fuel level tokens)
  closure : ∀ level params tokens, Words p tokens →
    Yields p (Expr.Within p) (readClosure fuel level params tokens)
  args : ∀ level tokens, Words p tokens →
    Yields p (AllWithin p) (readArgs fuel level tokens)
  items : ∀ level tokens, Words p tokens →
    Yields p (AllWithin p) (readItems fuel level tokens)
  entries : ∀ level tokens, Words p tokens →
    Yields p (fun entries => AllWithin p (entries.map Prod.snd)) (readEntries fuel level tokens)

namespace Readers

variable {fuel level : Nat} {tokens : List Token}

theorem expr_succ (h : Readers p fuel) (htokens : Words p tokens) :
    Yields p (Expr.Within p) (readExpr (fuel + 1) level tokens) := by
  rw [readExpr]
  refine Yields.guard (fun _ => Yields.none) fun _ => ?_
  exact (h.unary _ _ htokens).bind fun lhs rest hlhs hrest => h.operators _ _ _ _ hlhs hrest

theorem operators_succ (h : Readers p fuel) {parent : Nat} {lhs : Expr} (hlhs : lhs.Within p)
    (htokens : Words p tokens) :
    Yields p (Expr.Within p) (readOperators (fuel + 1) level parent lhs tokens) := by
  cases tokens with
  | nil =>
    rw [readOperators]
    exact Yields.some hlhs htokens
  | cons t rest =>
    rw [readOperators]
    split
    · exact Yields.some hlhs htokens
    · refine Yields.guard (fun _ => Yields.some hlhs htokens) fun _ => ?_
      refine (h.unary _ _ htokens.tail).bind fun rhs rest hrhs hrest => ?_
      have hoperand : ∀ (c : Prop) [Decidable c] parent, Yields p (Expr.Within p)
          (if c then readOperators fuel level parent rhs rest else some (rhs, rest)) :=
        fun _ _ _ => Yields.guard (fun _ => h.operators _ _ _ _ hrhs hrest)
          fun _ => Yields.some hrhs hrest
      refine (hoperand _ _).bind fun rhs rest hrhs hrest => ?_
      refine Yields.guard (fun _ => Yields.none) fun _ => ?_
      intro e after he
      obtain ⟨joined, hjoined, he⟩ := Option.bind_eq_some_iff.1 he
      exact h.operators _ _ _ _ (Infix.within_of_join? hjoined hlhs hrhs) hrest e after he

theorem sign_succ (h : Readers p fuel) {s : Sign} (htokens : Words p tokens) :
    Yields p (Expr.Within p) (readUnary.sign (fuel + 1) level s tokens) := by
  rw [readUnary.sign]
  refine Yields.guard (fun _ => Yields.none) fun _ => ?_
  refine (h.unary _ _ htokens).bind fun e rest he hrest => ?_
  intro signed after hsigned
  obtain ⟨e', he', heq⟩ := Option.map_eq_some_iff.1 hsigned
  obtain ⟨rfl, rfl⟩ := Prod.mk.inj heq
  exact ⟨Expr.within_of_withSign? he' he, hrest⟩

theorem unary_succ (h : Readers p fuel) (htokens : Words p tokens) :
    Yields p (Expr.Within p) (readUnary (fuel + 1) level tokens) := by
  rw [readUnary.eq_def]
  dsimp only
  split
  · exact h.sign _ _ _ htokens.tail
  · exact h.sign _ _ _ htokens.tail
  · exact h.sign _ _ _ htokens.tail
  · exact (h.primary _ _ htokens).bind fun e rest he hrest => h.chain _ _ _ he hrest

theorem chain_succ (h : Readers p fuel) {e : Expr} (he : e.Within p)
    (htokens : Words p tokens) :
    Yields p (Expr.Within p) (readPostfix (fuel + 1) level e tokens) := by
  rw [readPostfix.eq_def]
  dsimp only
  split
  · exact h.step _ _ _ _ he htokens.tail
  · exact h.step _ _ _ _ he htokens.tail
  · exact h.subscript _ _ _ _ he htokens.tail
  · exact h.subscript _ _ _ _ he htokens.tail
  · exact Yields.some he htokens

theorem step_succ (h : Readers p fuel) {e : Expr} {optional : Bool} (he : e.Within p)
    (htokens : Words p tokens) :
    Yields p (Expr.Within p) (readStep (fuel + 1) level e optional tokens) := by
  rw [readStep.eq_def]
  dsimp only
  split
  · split
    · exact Yields.guard
        (fun _ => h.chain _ _ _ (he.extend trivial) htokens.tail.tail) fun _ => Yields.none
    · refine Yields.guard (fun _ => ?_) fun _ => Yields.none
      exact (h.args _ _ htokens.tail.tail).bind fun args rest hargs hrest =>
        h.chain _ _ _ (he.extend hargs) hrest
    · exact Yields.guard
        (fun _ => h.chain _ _ _ (he.extend trivial) htokens.tail) fun _ => Yields.none
  · exact Yields.none

theorem subscript_succ (h : Readers p fuel) {e : Expr} {optional : Bool} (he : e.Within p)
    (htokens : Words p tokens) :
    Yields p (Expr.Within p) (readSubscript (fuel + 1) level e optional tokens) := by
  rw [readSubscript]
  refine (h.expr _ _ htokens).bind fun index rest hindex hrest => ?_
  refine Yields.bind_mark hrest fun rest hrest => ?_
  exact Yields.guard (fun _ => h.chain _ _ _ (he.extend hindex) hrest) fun _ => Yields.none

theorem primary_succ (h : Readers p fuel) (htokens : Words p tokens) :
    Yields p (Expr.Within p) (readPrimary (fuel + 1) level tokens) := by
  rw [readPrimary.eq_def]
  dsimp only
  split
  · exact Yields.none
  · exact Yields.some trivial htokens.tail
  · exact Yields.some trivial htokens.tail
  · exact Yields.some trivial htokens.tail
  · exact Yields.some trivial htokens.tail
  · next s _ =>
    refine (h.parts _ _ htokens.tail).map fun parts rest hparts hrest => ⟨?_, hrest⟩
    have hfront : AllWithin p
        (if s.isEmpty then parts else .str (String.ofList s) :: parts) := by
      split
      · exact hparts
      · exact ⟨trivial, hparts⟩
    have hjoined : ∀ parts : List Expr, AllWithin p parts →
        Expr.Within p (if parts.isEmpty then .str "" else .joined parts) := by
      intro parts hparts
      split
      · trivial
      · exact hparts
    exact hjoined _ hfront
  · exact h.named _ _ _ htokens.head htokens.tail
  · exact Yields.some trivial htokens.tail
  · exact (h.expr _ _ htokens.tail).bind fun e rest he hrest => Yields.map_mark hrest he
  · exact (h.items _ _ htokens.tail).map fun _ _ hitems hrest => ⟨hitems, hrest⟩
  · refine (h.entries _ _ htokens.tail).bind fun entries rest hentries hrest => ?_
    exact Yields.guard (fun _ => Yields.some hentries hrest) fun _ => Yields.none
  · exact h.closure _ _ _ htokens.tail
  · refine (yields_readParams htokens.tail).bind fun params rest _ hrest => ?_
    exact Yields.guard (fun _ => h.closure _ _ _ hrest) fun _ => Yields.none
  · exact Yields.none

theorem named_succ (h : Readers p fuel) {name : String} (hname : p name)
    (htokens : Words p tokens) :
    Yields p (Expr.Within p) (readNamed (fuel + 1) level name tokens) := by
  rw [readNamed.eq_def]
  dsimp only
  refine Yields.guard (fun _ => Yields.some trivial htokens) fun _ => ?_
  refine Yields.guard (fun _ => Yields.some trivial htokens) fun _ => ?_
  refine Yields.guard (fun _ => h.cond _ _ htokens) fun _ => ?_
  refine Yields.guard (fun _ => h.switch _ _ htokens) fun _ => ?_
  split
  · exact Yields.guard (fun _ => Yields.some ⟨hname, trivial⟩ htokens.tail) fun _ => Yields.none
  · refine Yields.guard (fun _ => ?_) fun _ => Yields.none
    exact (h.args _ _ htokens.tail).map fun _ _ hargs hrest => ⟨⟨hname, hargs⟩, hrest⟩
  · exact Yields.guard (fun _ => h.qualified _ _ htokens.tail) fun _ => Yields.none
  · exact Yields.guard (fun _ => Yields.some hname htokens) fun _ => Yields.none

theorem qualified_succ (h : Readers p fuel) (htokens : Words p tokens) :
    Yields p (Expr.Within p) (readQualified (fuel + 1) level tokens) := by
  rw [readQualified.eq_def]
  dsimp only
  split
  · refine Yields.guard (fun _ => ?_) fun _ => Yields.none
    split
    · exact h.qualified _ _ htokens.tail.tail
    · exact Yields.some trivial htokens.tail.tail
    · exact (h.args _ _ htokens.tail.tail).map fun _ _ hargs hrest => ⟨hargs, hrest⟩
    · exact Yields.some trivial htokens.tail
  · exact Yields.none

theorem parts_succ (h : Readers p fuel) (htokens : Words p tokens) :
    Yields p (AllWithin p) (readParts (fuel + 1) level tokens) := by
  have htext : ∀ s : String, AllWithin p (if s.isEmpty then [] else [.str s]) := by
    intro s
    split
    · trivial
    · exact ⟨trivial, trivial⟩
  rw [readParts]
  refine (h.block _ _ htokens).bind fun e rest he hrest => ?_
  dsimp only
  split
  · refine Yields.some (allWithin_append.2 ⟨?_, ?_⟩) hrest.tail
    · split
      · exact htext _
      · exact ⟨he, trivial⟩
    · split
      · trivial
      · exact ⟨trivial, trivial⟩
  · refine (h.parts _ _ hrest.tail).map fun parts rest hparts hrest =>
      ⟨allWithin_append.2 ⟨?_, ?_⟩, hrest⟩
    · split
      · exact htext _
      · exact ⟨he, trivial⟩
    · dsimp only
      split
      · exact hparts
      · exact ⟨trivial, hparts⟩
  · exact Yields.none

theorem block_succ (h : Readers p fuel) (htokens : Words p tokens) :
    Yields p (Expr.Within p) (readBlock (fuel + 1) level tokens) := by
  rw [readBlock]
  refine Yields.bind_mark htokens fun rest hrest => ?_
  exact (h.expr _ _ hrest).bind fun e rest he hrest => Yields.map_mark hrest he

theorem cond_succ (h : Readers p fuel) (htokens : Words p tokens) :
    Yields p (Expr.Within p) (readIf (fuel + 1) level tokens) := by
  rw [readIf]
  refine (h.expr _ _ htokens).bind fun condition rest hcondition hrest => ?_
  refine Yields.guard (fun _ => Yields.none) fun _ => ?_
  refine (h.block _ _ hrest).bind fun yes rest hyes hrest => ?_
  dsimp only
  split
  · exact (h.cond _ _ hrest.tail.tail).map fun _ _ hno hrest => ⟨⟨hcondition, hyes, hno⟩, hrest⟩
  · exact (h.block _ _ hrest.tail).map fun _ _ hno hrest => ⟨⟨hcondition, hyes, hno⟩, hrest⟩
  · exact Yields.some ⟨hcondition, hyes, trivial⟩ hrest

theorem switch_succ (h : Readers p fuel) (htokens : Words p tokens) :
    Yields p (Expr.Within p) (readSwitch (fuel + 1) level tokens) := by
  rw [readSwitch]
  refine (h.expr _ _ htokens).bind fun subject rest hsubject hrest => ?_
  refine Yields.bind_mark hrest fun rest hrest => ?_
  refine (h.cases _ _ hrest).map fun found rest hfound hrest => ?_
  obtain ⟨cases, otherwise⟩ := found
  refine ⟨⟨hsubject, hfound.1, ?_⟩, hrest⟩
  cases otherwise with
  | none => trivial
  | some e => exact hfound.2 e rfl

theorem cases_succ (h : Readers p fuel) (htokens : Words p tokens) :
    Yields p (fun found => CasesWithin p found.1 ∧ ∀ e ∈ found.2, e.Within p)
      (readCases (fuel + 1) level tokens) := by
  rw [readCases.eq_def]
  dsimp only
  split
  · exact Yields.some ⟨trivial, fun _ he => absurd he (Option.not_mem_none _)⟩ htokens.tail
  · refine Yields.bind_mark htokens.tail fun rest hrest => ?_
    refine (h.result _ _ hrest).bind fun result rest hresult hrest => ?_
    refine Yields.map_mark hrest ⟨trivial, ?_⟩
    rintro _ ⟨⟩
    exact hresult
  · refine (h.caseValues _ _ htokens).bind fun values rest hvalues hrest => ?_
    refine Yields.bind (q := Expr.Within p) ?_ fun guard rest hguard hrest => ?_
    · dsimp only
      split
      · exact h.expr _ _ hrest.tail
      · exact Yields.some trivial hrest
    · refine Yields.bind_mark hrest fun rest hrest => ?_
      refine (h.result _ _ hrest).bind fun result rest hresult hrest => ?_
      exact (h.cases _ _ hrest).map fun _ _ hfound hrest =>
        ⟨⟨⟨⟨hvalues, hguard, hresult⟩, hfound.1⟩, hfound.2⟩, hrest⟩

theorem caseValues_succ (h : Readers p fuel) (htokens : Words p tokens) :
    Yields p (AllWithin p) (readCaseValues (fuel + 1) level tokens) := by
  rw [readCaseValues]
  refine (h.unary _ _ htokens).bind fun lhs rest hlhs hrest => ?_
  refine (h.operators _ _ _ _ hlhs hrest).bind fun value rest hvalue hrest => ?_
  dsimp only
  split
  · exact (h.caseValues _ _ hrest.tail).map fun _ _ hvalues hrest => ⟨⟨hvalue, hvalues⟩, hrest⟩
  · exact Yields.some ⟨hvalue, trivial⟩ hrest

theorem result_succ (h : Readers p fuel) (htokens : Words p tokens) :
    Yields p (Expr.Within p) (readResult (fuel + 1) level tokens) := by
  rw [readResult.eq_def]
  dsimp only
  split
  · refine (h.block _ _ htokens).map fun e rest he hrest => ⟨he, ?_⟩
    dsimp only
    cases hcomma : readMark "," rest with
    | none => exact hrest
    | some after => exact hrest.of_readMark hcomma
  · refine (h.expr _ _ htokens).bind fun e rest he hrest => ?_
    dsimp only
    split
    · exact Yields.some he hrest.tail
    · exact Yields.some he hrest
    · exact Yields.none

theorem closure_succ (h : Readers p fuel) {params : List String} (htokens : Words p tokens) :
    Yields p (Expr.Within p) (readClosure (fuel + 1) level params tokens) := by
  rw [readClosure.eq_def]
  dsimp only
  split
  · exact (h.block _ _ htokens).map fun _ _ he hrest => ⟨he, hrest⟩
  · exact (h.expr _ _ htokens).map fun _ _ he hrest => ⟨he, hrest⟩

theorem args_succ (h : Readers p fuel) (htokens : Words p tokens) :
    Yields p (AllWithin p) (readArgs (fuel + 1) level tokens) := by
  rw [readArgs.eq_def]
  dsimp only
  split
  · exact Yields.some trivial htokens.tail
  · refine (h.expr _ _ htokens).bind fun e rest he hrest => ?_
    dsimp only
    split
    · exact (h.args _ _ hrest.tail).map fun _ _ hes hrest => ⟨⟨he, hes⟩, hrest⟩
    · exact Yields.some ⟨he, trivial⟩ hrest.tail
    · exact Yields.none

theorem items_succ (h : Readers p fuel) (htokens : Words p tokens) :
    Yields p (AllWithin p) (readItems (fuel + 1) level tokens) := by
  rw [readItems.eq_def]
  dsimp only
  split
  · exact Yields.some trivial htokens.tail
  · refine (h.expr _ _ htokens).bind fun e rest he hrest => ?_
    dsimp only
    split
    · exact (h.items _ _ hrest.tail).map fun _ _ hes hrest => ⟨⟨he, hes⟩, hrest⟩
    · exact Yields.some ⟨he, trivial⟩ hrest.tail
    · exact Yields.none

theorem entries_succ (h : Readers p fuel) (htokens : Words p tokens) :
    Yields p (fun entries => AllWithin p (entries.map Prod.snd))
      (readEntries (fuel + 1) level tokens) := by
  rw [readEntries.eq_def]
  dsimp only
  split
  · exact Yields.some trivial htokens.tail
  · refine (yields_readKey htokens).bind fun key rest _ hrest => ?_
    refine Yields.bind_mark hrest fun rest hrest => ?_
    refine (h.expr _ _ hrest).bind fun e rest he hrest => ?_
    dsimp only
    split
    · exact (h.entries _ _ hrest.tail).map fun _ _ hes hrest => ⟨⟨he, hes⟩, hrest⟩
    · exact Yields.some ⟨he, trivial⟩ hrest.tail
    · exact Yields.none

/-- Without fuel, no reader gives anything. -/
theorem zero : Readers p 0 where
  expr _ _ _ := by rw [readExpr]; exact Yields.none
  operators _ _ _ _ _ _ := by rw [readOperators]; exact Yields.none
  unary _ _ _ := by rw [readUnary]; exact Yields.none
  sign _ _ _ _ := by rw [readUnary.sign]; exact Yields.none
  chain _ _ _ _ _ := by rw [readPostfix]; exact Yields.none
  step _ _ _ _ _ _ := by rw [readStep]; exact Yields.none
  subscript _ _ _ _ _ _ := by rw [readSubscript]; exact Yields.none
  primary _ _ _ := by rw [readPrimary]; exact Yields.none
  named _ _ _ _ _ := by rw [readNamed]; exact Yields.none
  qualified _ _ _ := by rw [readQualified]; exact Yields.none
  parts _ _ _ := by rw [readParts]; exact Yields.none
  block _ _ _ := by rw [readBlock]; exact Yields.none
  cond _ _ _ := by rw [readIf]; exact Yields.none
  switch _ _ _ := by rw [readSwitch]; exact Yields.none
  cases _ _ _ := by rw [readCases]; exact Yields.none
  caseValues _ _ _ := by rw [readCaseValues]; exact Yields.none
  result _ _ _ := by rw [readResult]; exact Yields.none
  closure _ _ _ _ := by rw [readClosure]; exact Yields.none
  args _ _ _ := by rw [readArgs]; exact Yields.none
  items _ _ _ := by rw [readItems]; exact Yields.none
  entries _ _ _ := by rw [readEntries]; exact Yields.none

/-- One more unit of fuel. -/
theorem succ (h : Readers p fuel) : Readers p (fuel + 1) where
  expr _ _ htokens := h.expr_succ htokens
  operators _ _ _ _ hlhs htokens := h.operators_succ hlhs htokens
  unary _ _ htokens := h.unary_succ htokens
  sign _ _ _ htokens := h.sign_succ htokens
  chain _ _ _ he htokens := h.chain_succ he htokens
  step _ _ _ _ he htokens := h.step_succ he htokens
  subscript _ _ _ _ he htokens := h.subscript_succ he htokens
  primary _ _ htokens := h.primary_succ htokens
  named _ _ _ hname htokens := h.named_succ hname htokens
  qualified _ _ htokens := h.qualified_succ htokens
  parts _ _ htokens := h.parts_succ htokens
  block _ _ htokens := h.block_succ htokens
  cond _ _ htokens := h.cond_succ htokens
  switch _ _ htokens := h.switch_succ htokens
  cases _ _ htokens := h.cases_succ htokens
  caseValues _ _ htokens := h.caseValues_succ htokens
  result _ _ htokens := h.result_succ htokens
  closure _ _ _ htokens := h.closure_succ htokens
  args _ _ htokens := h.args_succ htokens
  items _ _ htokens := h.items_succ htokens
  entries _ _ htokens := h.entries_succ htokens

end Readers

/-- **All readers give what is within the words of their tokens.** -/
theorem readers (p : String → Prop) (fuel : Nat) : Readers p fuel := by
  induction fuel with
  | zero => exact Readers.zero
  | succ fuel ih => exact ih.succ

/-- An expression is within the words of the tokens that it was read from. -/
theorem Expr.within_of_ofChars? {cs : List Char} {tokens : List Token} {e : Expr}
    (htokens : scan? cs = some tokens) (hwords : Words p tokens)
    (he : Expr.ofChars? cs = some e) : e.Within p := by
  rw [Expr.ofChars?, htokens, Option.bind_some] at he
  split at he
  · next found hread =>
    cases he
    exact ((readers p _).expr _ _ hwords _ _ hread).1
  · cases he

end Runbook.Condition
