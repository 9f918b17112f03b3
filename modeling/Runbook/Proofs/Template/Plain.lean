import Runbook.Template.Interpolate
/-!
# Templates without dot style

What interpolation does to a text that is already in the template language.

* `tags` — the tags of a text;
* `LeadingDot` — a place in a tag where a dot starts a reference, inside a string literal or not
  (`InLiteral`);
* `normalize_eq_self_iff` — when no tag changes its form, the text stays the same exactly if none of
  its tags holds such a dot;
* `interpolate_of_plain` — interpolation is then rendering in the template language, and a text
  whose rendering fails stays as it is;
* `interpolate_drops_quoted_dot` — a dot in a string literal is dropped like any other.
-/

namespace Runbook.Template

open Runbook.Text

/-! ### Tags and the text between them -/

/-- The characters of a piece. -/
def Piece.chars : Piece → List Char
  | .char c => [c]
  | .tag text => text

/-- The tag that a piece is. -/
def Piece.tag? : Piece → Option (List Char)
  | .char _ => none
  | .tag text => some text

/-- The tags of a text. -/
def tags (cs : List Char) : List (List Char) :=
  (pieces cs).filterMap Piece.tag?

/-- The pieces of a text make up the text. -/
theorem flatMap_chars_pieces (cs : List Char) : (pieces cs).flatMap Piece.chars = cs := by
  fun_induction pieces cs with
  | case1 => rfl
  | case2 c rest tag after hread _ ih =>
    rw [List.flatMap_cons, ih]
    exact (readTag?_eq_some hread).1.symm
  | case3 c rest hread ih => rw [List.flatMap_cons, ih]; rfl

/-- Only a tag in double braces can be in dot style. -/
theorem Action.Scope.tag?_eq_none (s : Action.Scope) {tag : List Char}
    (h : ¬ ['{', '{'] <+: tag) : s.tag? tag = none := by
  have hstart : dropStart? ['{', '{'] tag = none := by
    refine Option.eq_none_iff_forall_ne_some.2 fun rest hrest => h ⟨rest, ?_⟩
    exact (dropStart?_eq_some hrest).symm
  rw [Action.Scope.tag?, hstart, Option.bind_none]

/-- The characters of a piece after those dots are dropped that start a reference. -/
def Piece.stripped : Piece → List Char
  | .char c => [c]
  | .tag text => stripDots true text

/-- Tags that are in no form of dot style lose their leading dots and nothing else. -/
theorem normalizePieces_of_plain {s : Action.Scope} :
    ∀ ps : List Piece, (∀ tag ∈ ps.filterMap Piece.tag?, s.tag? tag = none) →
      normalizePieces s ps = ps.flatMap Piece.stripped
  | [], _ => rfl
  | .char c :: rest, h => by
    rw [normalizePieces, normalizePieces_of_plain rest h]
    rfl
  | .tag tag :: rest, h => by
    have hrest := normalizePieces_of_plain rest fun t ht => h t (List.mem_cons_of_mem _ ht)
    rw [normalizePieces, h tag List.mem_cons_self, hrest]
    rfl

/-! ### Leading dots -/

/-- A place in a tag where a dot starts a reference: nothing or a blank, a bracket or an operator
stands in front of it, and a letter or an underscore behind it. -/
structure LeadingDot (tag front back : List Char) : Prop where
  split : tag = front ++ '.' :: back
  free : front.getLast?.all precedesDot = true
  starts : back.head?.any isIdentStart = true

instance (tag front back : List Char) : Decidable (LeadingDot tag front back) :=
  decidable_of_iff (tag = front ++ '.' :: back ∧ front.getLast?.all precedesDot = true ∧
      back.head?.any isIdentStart = true)
    ⟨fun ⟨hsplit, hfree, hstarts⟩ => ⟨hsplit, hfree, hstarts⟩,
      fun h => ⟨h.split, h.free, h.starts⟩⟩

/-- The quote that is open behind a character: each quote opens a literal, which lasts up to the
same quote. -/
def quoteAfter : Option Char → Char → Option Char
  | none, c => if Action.quotes.contains c then some c else none
  | some q, c => if c = q then none else some q

/-- Whether a string literal is open behind some characters. -/
def InLiteral (front : List Char) : Prop :=
  (front.foldl quoteAfter none).isSome = true

instance (front : List Char) : Decidable (InLiteral front) :=
  inferInstanceAs (Decidable (_ = true))

/-- The characters in front of a leading dot are the first ones of its tag, so finitely many places
decide where such dots stand. -/
theorem inLiteral_of_take {tag : List Char} (h : ∀ n < tag.length,
    LeadingDot tag (tag.take n) (tag.drop (n + 1)) → InLiteral (tag.take n))
    (front back : List Char) (hdot : LeadingDot tag front back) : InLiteral front := by
  have hfront : tag.take front.length = front := by rw [hdot.split, List.take_left']; rfl
  have hback : tag.drop (front.length + 1) = back := by
    rw [hdot.split, ← List.drop_drop, List.drop_left']; rfl; rfl
  have hlength : front.length < tag.length := by rw [hdot.split]; simp
  have hplace := h front.length hlength
  rw [hfront, hback] at hplace
  exact hplace hdot

/-- Dropping dots keeps the other characters in their order. -/
theorem stripDots_sublist (ready : Bool) (cs : List Char) : (stripDots ready cs).Sublist cs := by
  fun_induction stripDots ready cs with
  | case1 => exact .slnil
  | case2 ready c rest _ ih => exact .cons c ih
  | case3 ready c rest _ ih => exact .cons_cons c ih

/-- The dots that are dropped are those that start a reference; `ready` stands for what precedes the
first character. -/
theorem stripDots_eq_self (ready : Bool) (cs : List Char) :
    stripDots ready cs = cs ↔ ∀ front back, cs = front ++ '.' :: back →
      (front.getLast?.map precedesDot).getD ready = true →
        ¬ back.head?.any isIdentStart = true := by
  induction cs generalizing ready with
  | nil => simp [stripDots]
  | cons c rest ih =>
    rw [stripDots]
    split
    · next hdot =>
      obtain ⟨⟨hready, hc⟩, hstarts⟩ : (ready = true ∧ c = '.') ∧
          rest.head?.any isIdentStart = true := by simpa using hdot
      refine iff_of_false (fun he => ?_) fun h => h [] rest (by rw [hc]; rfl) hready hstarts
      have hlength := (stripDots_sublist false rest).length_le
      rw [he, List.length_cons] at hlength
      omega
    · next hdot =>
      rw [List.cons.injEq, ih (precedesDot c)]
      refine ⟨fun ⟨_, h⟩ front back hsplit hfree hstarts => ?_, fun h => ⟨rfl, fun front back hsplit
        hfree => ?_⟩⟩
      · cases front with
        | nil =>
          -- the first character itself would be dropped
          obtain ⟨rfl, rfl⟩ := List.cons.inj hsplit
          exact hdot (by simpa [hstarts] using hfree)
        | cons d front =>
          obtain ⟨rfl, hrest⟩ := List.cons.inj hsplit
          refine h front back hrest ?_ hstarts
          cases hlast : front.getLast? <;> simpa [List.getLast?_cons, hlast] using hfree
      · refine h (c :: front) back (congrArg (c :: ·) hsplit) ?_
        cases hlast : front.getLast? <;> simpa [List.getLast?_cons, hlast] using hfree

/-- At the start of a tag a dot may stand as behind a blank. -/
theorem getD_precedesDot (last? : Option Char) :
    (last?.map precedesDot).getD true = last?.all precedesDot := by
  cases last? <;> rfl

/-- A tag keeps its dots exactly if none of them starts a reference. -/
theorem stripDots_eq_self_iff (tag : List Char) :
    stripDots true tag = tag ↔ ∀ front back, ¬ LeadingDot tag front back := by
  rw [stripDots_eq_self]
  refine ⟨fun h front back hdot => h front back hdot.split ?_ hdot.starts,
    fun h front back hsplit hfree hstarts => h front back ⟨hsplit, ?_, hstarts⟩⟩
  · rw [getD_precedesDot]
    exact hdot.free
  · rw [getD_precedesDot] at hfree
    exact hfree

/-- Two texts put together are shorter ones put together only if both are the same. -/
theorem append_eq_of_sublist {as bs as' bs' : List Char} (ha : as.Sublist as')
    (hb : bs.Sublist bs') : as ++ bs = as' ++ bs' ↔ as = as' ∧ bs = bs' := by
  refine ⟨fun h => ?_, fun ⟨hl, hr⟩ => by rw [hl, hr]⟩
  have hlength := congrArg List.length h
  have hle := ha.length_le
  have hle' := hb.length_le
  simp only [List.length_append] at hlength
  exact ⟨ha.eq_of_length (by omega), hb.eq_of_length (by omega)⟩

/-- A piece without the dots that start a reference. -/
theorem Piece.stripped_sublist : ∀ p : Piece, p.stripped.Sublist p.chars
  | .char _ => List.Sublist.refl _
  | .tag text => stripDots_sublist true text

/-- All pieces without these dots. -/
theorem flatMap_stripped_sublist : ∀ ps : List Piece,
    (ps.flatMap Piece.stripped).Sublist (ps.flatMap Piece.chars)
  | [] => .slnil
  | p :: rest => by
    rw [List.flatMap_cons, List.flatMap_cons]
    exact p.stripped_sublist.append (flatMap_stripped_sublist rest)

/-- Pieces keep their text exactly if each of their tags does. -/
theorem flatMap_stripped_eq_iff : ∀ ps : List Piece,
    ps.flatMap Piece.stripped = ps.flatMap Piece.chars ↔
      ∀ tag ∈ ps.filterMap Piece.tag?, stripDots true tag = tag
  | [] => by simp
  | .char c :: rest => by
    have ih := flatMap_stripped_eq_iff rest
    rw [List.flatMap_cons, List.flatMap_cons,
      append_eq_of_sublist (Piece.stripped_sublist _) (flatMap_stripped_sublist rest), ih]
    exact ⟨fun h => h.2, fun h => ⟨rfl, h⟩⟩
  | .tag tag :: rest => by
    have ih := flatMap_stripped_eq_iff rest
    rw [List.flatMap_cons, List.flatMap_cons,
      append_eq_of_sublist (Piece.stripped_sublist _) (flatMap_stripped_sublist rest), ih]
    show stripDots true tag = tag ∧ _ ↔ ∀ t ∈ tag :: rest.filterMap Piece.tag?, _
    rw [List.forall_mem_cons]

/-- A text none of whose tags is in a form of dot style stays the same exactly if no dot in a tag
starts a reference. -/
theorem normalize_eq_self_iff {filters : List (List Char)} {cs : List Char}
    (hforms : ∀ tag ∈ tags cs, ['{', '{'] <+: tag →
      ({ filters } : Action.Scope).tag? tag = none) :
    normalize filters cs = cs ↔ ∀ tag ∈ tags cs, ∀ front back, ¬ LeadingDot tag front back := by
  have hplain : ∀ tag ∈ tags cs, ({ filters } : Action.Scope).tag? tag = none := by
    intro tag htag
    by_cases hstart : ['{', '{'] <+: tag
    · exact hforms tag htag hstart
    · exact Action.Scope.tag?_eq_none _ hstart
  have hpieces := flatMap_stripped_eq_iff (pieces cs)
  rw [flatMap_chars_pieces] at hpieces
  rw [normalize, normalizePieces_of_plain _ hplain, hpieces]
  exact forall₂_congr fun tag _ => stripDots_eq_self_iff tag

/-! ### Rendering as it stands -/

/-- The filters that dot style may call. -/
def callable (functions : ValueFunctions) : List (List Char) :=
  "shell_escape".toList :: functions.map fun f => f.1.toList

/-- The text of a template that is in the template language as it stands. -/
def renderPlain? (functions : ValueFunctions) (vars : Namespace) (cs : List Char) :
    Option (List Char) :=
  (ofChars? cs).bind fun nodes =>
    renderTemplate?
      { vars := Fields.insert (String.ofList Action.root) (.obj vars) vars
        filter? := filter? functions }
      nodes

theorem render?_eq (functions : ValueFunctions) (vars : Namespace) (cs : List Char) :
    render? functions vars cs = renderPlain? functions vars (normalize (callable functions) cs) :=
  rfl

/-- A text that holds no start of a tag or a comment does not start with one. -/
theorem ne_start_of_plain {cs : List Char} (h : looksLikeTemplate cs = false) {c : Char}
    (hc : c = '{' ∨ c = '%' ∨ c = '#') (rest : List Char) : cs ≠ '{' :: c :: rest := by
  rintro rfl
  rcases hc with rfl | rfl | rfl <;> simp [looksLikeTemplate, contains] at h

/-- It is read to its end. -/
theorem readText_of_plain : ∀ cs : List Char, looksLikeTemplate cs = false →
    readText cs = (cs, [])
  | [], _ => rfl
  | [c], _ => by
    by_cases hc : c = '{'
    · subst hc
      rfl
    · rw [readText]
      · rfl
      · rintro _ _ h
        exact absurd h hc
  | c :: d :: rest, h => by
    have hrest : looksLikeTemplate (d :: rest) = false := by
      simp only [looksLikeTemplate, contains, Bool.or_eq_false_iff] at h ⊢
      exact ⟨⟨h.1.1.2, h.1.2.2⟩, h.2.2⟩
    have ih := readText_of_plain (d :: rest) hrest
    by_cases hc : c = '{'
    · subst hc
      have hd : ¬ (d = '{' ∨ d = '%' ∨ d = '#') := fun hd => ne_start_of_plain h hd rest rfl
      rw [readText, if_neg hd, ih]
    · rw [readText, ih]
      rintro _ _ h
      exact absurd h hc

/-- Such a text is one part of a template, which is rendered as it is. -/
theorem renderPlain?_of_plain (functions : ValueFunctions) (vars : Namespace) {cs : List Char}
    (h : looksLikeTemplate cs = false) : renderPlain? functions vars cs = some cs := by
  have hread := readText_of_plain cs h
  cases cs with
  | nil => rfl
  | cons c rest =>
    have hnode (fuel : Nat) : readNode (fuel + 1) .top (c :: rest) =
        some (.text (c :: rest), []) := by
      rw [readNode, hread]
      · nofun
      · exact ne_start_of_plain h (by decide)
      · exact ne_start_of_plain h (by decide)
      · exact ne_start_of_plain h (by decide)
    have hnodes (fuel : Nat) : readNodes (fuel + 3) .top (c :: rest) =
        ([.text (c :: rest)], []) := by
      rw [readNodes, hnode]
      rfl
    have htemplate : ofChars? (c :: rest) = some [.text (c :: rest)] := by
      rw [ofChars?, List.length_cons, hnodes]
      rfl
    rw [renderPlain?, htemplate]
    simp [renderTemplate?, renderNodes, renderNode]

/-- **Templates without dot style.**  When no tag is in a form of dot style and no dot outside the
string literals of a tag starts a reference, the text stays the same exactly if no dot inside them
would start one either, and its interpolation is then what the template language makes of it, or
the text itself where that fails. -/
theorem interpolate_of_plain (functions : ValueFunctions) (vars : Namespace) (text : String)
    (hforms : ∀ tag ∈ tags text.toList, ['{', '{'] <+: tag →
      ({ filters := callable functions } : Action.Scope).tag? tag = none)
    (hrefs : ∀ tag ∈ tags text.toList, ∀ front back,
      LeadingDot tag front back → InLiteral front) :
    (normalize (callable functions) text.toList = text.toList ↔
      ∀ tag ∈ tags text.toList, ∀ front back, InLiteral front → ¬ LeadingDot tag front back) ∧
    ((∀ tag ∈ tags text.toList, ∀ front back, InLiteral front → ¬ LeadingDot tag front back) →
      interpolate functions vars text =
        ((renderPlain? functions vars text.toList).map String.ofList).getD text) := by
  have hsame : normalize (callable functions) text.toList = text.toList ↔
      ∀ tag ∈ tags text.toList, ∀ front back, InLiteral front → ¬ LeadingDot tag front back := by
    rw [normalize_eq_self_iff hforms]
    refine forall₂_congr fun tag htag => forall₂_congr fun front back => ?_
    exact ⟨fun h _ => h, fun h hdot => h (hrefs tag htag front back hdot) hdot⟩
  refine ⟨hsame, fun hquoted => ?_⟩
  rw [interpolate]
  split
  · rw [render?_eq, hsame.2 hquoted]
    cases renderPlain? functions vars text.toList <;> rfl
  · next hlooks =>
    rw [renderPlain?_of_plain functions vars (Bool.eq_false_iff.2 hlooks)]
    simp

/-- A version in a string literal, and a condition with a dot behind it. -/
def quotedVersion : String :=
  "\x7b\x7b host ~ \"(v1.2)\" \x7d\x7d\x7b% if on %\x7d .x\x7b% endif %\x7d"

/-- Its tags keep their dots. -/
theorem interpolate_of_quotedVersion :
    interpolate [] [("host", .str "db"), ("on", .bool true)] quotedVersion = "db(v1.2) .x" ∧
    interpolate [] [("host", .str "db"), ("on", .bool true)] quotedVersion =
      ((renderPlain? [] [("host", .str "db"), ("on", .bool true)] quotedVersion.toList).map
        String.ofList).getD quotedVersion := by
  have hforms : ∀ tag ∈ tags quotedVersion.toList, ['{', '{'] <+: tag →
      ({ filters := callable [] } : Action.Scope).tag? tag = none := by decide +kernel
  have hdots : ∀ tag ∈ tags quotedVersion.toList, stripDots true tag = tag := by decide +kernel
  have hfree : ∀ tag ∈ tags quotedVersion.toList, ∀ front back, ¬ LeadingDot tag front back :=
    fun tag htag => (stripDots_eq_self_iff tag).1 (hdots tag htag)
  refine ⟨by decide +kernel, ?_⟩
  exact (interpolate_of_plain [] _ quotedVersion hforms
    (fun tag htag front back hdot => absurd hdot (hfree tag htag front back))).2
    fun tag htag front back _ => hfree tag htag front back

/-- The name of a file in a string literal. -/
def quotedFile : String := "\x7b\x7b \"see .bashrc on \" ~ host \x7d\x7d"

/-- A dot in a string literal is dropped like any other, and the text differs from what the template
language makes of it. -/
theorem interpolate_drops_quoted_dot :
    ¬ ∀ (functions : ValueFunctions) (vars : Namespace) (text : String),
      (∀ tag ∈ tags text.toList, ['{', '{'] <+: tag →
        ({ filters := callable functions } : Action.Scope).tag? tag = none) →
      (∀ tag ∈ tags text.toList, ∀ front back, LeadingDot tag front back → InLiteral front) →
        interpolate functions vars text =
          ((renderPlain? functions vars text.toList).map String.ofList).getD text := by
  intro hclaim
  have hforms : ∀ tag ∈ tags quotedFile.toList, ['{', '{'] <+: tag →
      ({ filters := callable [] } : Action.Scope).tag? tag = none := by decide +kernel
  have hplaces : ∀ tag ∈ tags quotedFile.toList, ∀ n < tag.length,
      LeadingDot tag (tag.take n) (tag.drop (n + 1)) → InLiteral (tag.take n) := by
    decide +kernel
  have hsame := hclaim [] [("host", .str "db")] quotedFile hforms
    fun tag htag => inLiteral_of_take (hplaces tag htag)
  have hshown : interpolate [] [("host", .str "db")] quotedFile = "see bashrc on db" := by
    decide +kernel
  have hmeant : renderPlain? [] [("host", .str "db")] quotedFile.toList =
      some "see .bashrc on db".toList := by decide +kernel
  rw [hshown, hmeant] at hsame
  exact absurd hsame (by decide +kernel)

end Runbook.Template
