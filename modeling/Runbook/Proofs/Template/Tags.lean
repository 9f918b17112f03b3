import Runbook.Proofs.Template.Grouping
/-!
# Tags with actions

What the tags of a template become, and where the action of a tag stands in it.

* `Scope.tag?_eq_some` — a tag becomes a comment, or the body that its tokens make;
* `Scope.Reached` — the scopes that the tags of a template lead to;
* `Scope.actionForm?` — the tree of the action in a tag, which is shown, decides a condition, is
  assigned to a name, or is the source of a loop;
* `Scope.BodyOf` — where the text of that action stands between the braces of the tag it becomes;
* `Scope.body?_cases`, `Scope.tag?_cases` — a tag becomes a comment, or one of these bodies.
-/

namespace Runbook.Template.Action

open Runbook.Text

/-- A tag between its braces. -/
def TagBody.text (left right : Bool) : TagBody → List Char
  | .statement inner => delimited '%' left right inner
  | .expression inner => delimited '{' left right inner

namespace Scope

/-! ### Tokens -/

/-- The tokens of a tag between its braces and trim markers. -/
def tagTokens? (tag : List Char) : Option (List Token) :=
  (dropStart? ['{', '{'] tag).bind fun inner =>
    (dropTail? ['}', '}'] inner).bind fun inner =>
      scan? (Text.trim (trailingMarker (leadingMarker inner).2).2)

/-- A comment has no tokens. -/
theorem scan?_of_comment {cs inner : List Char} (h : comment? cs = some inner) :
    scan? cs = none := by
  obtain ⟨rest, hstart, -⟩ := Option.bind_eq_some_iff.1 h
  rw [dropStart?_eq_some hstart]
  rfl

/-- A tag without tokens becomes a comment and leaves the scope alone, and any other becomes the
text of the body that its tokens make. -/
theorem tag?_eq_some {s s' : Scope} {tag text : List Char} (h : s.tag? tag = some (text, s')) :
    (tagTokens? tag = none ∧ s' = s ∧ ∃ rest, text = '{' :: '#' :: rest) ∨
      ∃ tokens body left right, tagTokens? tag = some tokens ∧ s.body? tokens = some (body, s') ∧
        text = body.text left right := by
  obtain ⟨opened, hopen, h⟩ := Option.bind_eq_some_iff.1 h
  obtain ⟨inside, hclose, h⟩ := Option.bind_eq_some_iff.1 h
  have htokens : tagTokens? tag
      = scan? (Text.trim (trailingMarker (leadingMarker inside).2).2) := by
    unfold tagTokens?
    rw [hopen, Option.bind_some, hclose]
    rfl
  dsimp only at h
  split at h
  · next hcomment =>
    cases h
    exact .inl ⟨htokens.trans (scan?_of_comment hcomment), rfl, _, rfl⟩
  · obtain ⟨tokens, hscan, h⟩ := Option.bind_eq_some_iff.1 h
    obtain ⟨⟨body, t⟩, hbody, h⟩ := Option.map_eq_some_iff.1 h
    refine .inr ⟨tokens, body, (leadingMarker inside).1,
      (trailingMarker (leadingMarker inside).2).1, htokens.trans hscan, ?_⟩
    cases body with
    | statement inner =>
      cases h
      exact ⟨hbody, rfl⟩
    | expression inner =>
      cases h
      exact ⟨hbody, rfl⟩

/-- What the tokens of a tag make is what the tag becomes. -/
theorem exists_tag?_of_body? {s s' : Scope} {tag : List Char} {tokens : List Token}
    {body : TagBody} (htokens : tagTokens? tag = some tokens)
    (hbody : s.body? tokens = some (body, s')) :
    ∃ left right, s.tag? tag = some (body.text left right, s') := by
  obtain ⟨opened, hopen, hinside⟩ := Option.bind_eq_some_iff.1 htokens
  obtain ⟨inside, hclose, hscan⟩ := Option.bind_eq_some_iff.1 hinside
  refine ⟨(leadingMarker inside).1, (trailingMarker (leadingMarker inside).2).1, ?_⟩
  rw [Scope.tag?, hopen, Option.bind_some, hclose, Option.bind_some]
  dsimp only
  split
  · next hcomment =>
    rw [scan?_of_comment hcomment] at hscan
    cases hscan
  · rw [hscan, Option.bind_some, hbody]
    cases body <;> rfl

/-! ### Scopes -/

/-- Tags keep a scope sound, so every scope is that a template reaches. -/
theorem Sound.tag? {s s' : Scope} (hs : s.Sound) {tag text : List Char}
    (h : s.tag? tag = some (text, s')) : s'.Sound := by
  rcases tag?_eq_some h with ⟨-, rfl, -⟩ | ⟨tokens, body, left, right, -, hbody, -⟩
  · exact hs
  · exact hs.body? hbody

/-- The scopes that the tags of a template lead to. -/
inductive Reached (filters : List (List Char)) : Scope → Prop where
  | start : Reached filters { filters }
  | tag {s s' : Scope} {tag text : List Char} (h : Reached filters s)
    (htag : s.tag? tag = some (text, s')) : Reached filters s'

theorem Reached.sound {filters : List (List Char)} {s : Scope} (h : Reached filters s) :
    s.Sound := by
  induction h with
  | start => exact sound_of_nil filters
  | tag h htag ih => exact ih.tag? htag

/-! ### Actions -/

/-- The tokens behind a name that is declared; all tokens if none is. -/
def behindDeclare (first : Token) : List Token → List Token
  | .declare :: rest => rest
  | rest => first :: rest

/-- The tokens of the action: those behind the word that opens a block and behind new names. -/
def actionTokens? (s : Scope) : List Token → Option (List Token)
  | .word first :: rest =>
    if first = "if".toList then some rest
    else if first = "else".toList ∧ (startsWith? "if" rest).isSome then some (rest.drop 1)
    else if first = "range".toList then (loopNames? s rest).map (·.2)
    else some (behindDeclare (.word first) rest)
  | tokens => some tokens

/-- The text of the action in a tag. -/
def actionText? (s : Scope) (tokens : List Token) : Option (List Char) :=
  (s.actionTokens? tokens).bind s.pipeline?

/-- The tree of the action in a tag. -/
def actionForm? (s : Scope) (tag : List Char) : Option Form :=
  ((tagTokens? tag).bind s.actionTokens?).bind fun tokens =>
    (readPipeline? tokens).bind s.onlyForm?

/-- The text of an action is the text of its tree. -/
theorem actionText?_of_form {s : Scope} {tag inner : List Char} {tokens : List Token} {f : Form}
    (htokens : tagTokens? tag = some tokens) (hform : s.actionForm? tag = some f)
    (hinner : s.actionText? tokens = some inner) : inner = f.text := by
  unfold actionForm? at hform
  rw [htokens, Option.bind_some] at hform
  obtain ⟨action, haction, hinner⟩ := Option.bind_eq_some_iff.1 hinner
  rw [haction, Option.bind_some] at hform
  obtain ⟨stages, hstages, hform⟩ := Option.bind_eq_some_iff.1 hform
  rw [pipeline?_of_form hstages hform] at hinner
  exact (Option.some.inj hinner).symm

theorem printed_of_actionForm? {filters : List (List Char)} {s : Scope} (hs : Reached filters s)
    {tag : List Char} {f : Form} (hform : s.actionForm? tag = some f) : f.Printed := by
  obtain ⟨action, -, hform⟩ := Option.bind_eq_some_iff.1 hform
  obtain ⟨stages, -, hform⟩ := Option.bind_eq_some_iff.1 hform
  exact (printed_of_onlyForm? hs.sound stages f hform).1

/-! ### What tags become -/

/-- What a tag with these tokens becomes. -/
inductive BodyOf (s : Scope) (tokens : List Token) : TagBody → Prop where
  | bare {word : List Char} (h : word ∈ ["else".toList, "endif".toList, "endfor".toList]) :
    BodyOf s tokens (.statement word)
  | shown {inner : List Char} (h : s.actionText? tokens = some inner) :
    BodyOf s tokens (.expression inner)
  | decides {word : List Char} (hword : word ∈ ["if ".toList, "elif ".toList]) {inner : List Char}
    (h : s.actionText? tokens = some inner) : BodyOf s tokens (.statement (word ++ inner))
  | assigned {name : List Char} (hname : isIdentifier name = true) {inner : List Char}
    (h : s.actionText? tokens = some inner) :
    BodyOf s tokens (.statement ("set ".toList ++ name ++ " = ".toList ++ inner))
  | source {names : List (List Char)} {rest rest' : List Token}
    (hnames : loopNames? s rest = some (names, rest')) {inner : List Char}
    (h : s.actionText? tokens = some inner) :
    BodyOf s tokens
      (.statement ("for ".toList ++ joinWith [',', ' '] names ++ " in ".toList ++ inner))

section Bodies

variable {s s' : Scope} {first : List Char} {rest tokens : List Token} {body : TagBody}

/-- A tag that opens no block has its action in front of it, or behind a name. -/
theorem actionTokens?_of_not_opensBlock (h : ¬ OpensBlock first rest) :
    s.actionTokens? (.word first :: rest) = some (behindDeclare (.word first) rest) := by
  have hif : ¬ first = "if".toList := fun hword => h (.inl hword)
  have helse : ¬ (first = "else".toList ∧ (startsWith? "if" rest).isSome) :=
    fun hword => h (.inr (.inl hword))
  have hrange : ¬ first = "range".toList := fun hword => h (.inr (.inr hword))
  rw [actionTokens?, if_neg hif, if_neg helse, if_neg hrange]

/-- A tag that shows a value is its action. -/
theorem actionTokens?_of_shows (h : ∀ first rest, tokens = .word first :: rest →
    ¬ OpensBlock first rest ∧ ∀ more, rest ≠ .declare :: more) :
    s.actionTokens? tokens = some tokens := by
  unfold actionTokens?
  split
  · next first rest =>
    obtain ⟨hopens, hdeclare⟩ := h first rest rfl
    have haction := actionTokens?_of_not_opensBlock (s := s) hopens
    have hbehind : behindDeclare (.word first) rest = .word first :: rest := by
      unfold behindDeclare
      split
      · exact absurd rfl (hdeclare _)
      · rfl
    rw [hbehind] at haction
    exact haction
  · rfl

/-- A tag becomes one of these. -/
theorem body?_cases (h : s.body? tokens = some (body, s')) : BodyOf s tokens body := by
  cases makesBody_of_body? h with
  | opensCondition hbody =>
    obtain ⟨inner, hinner, he⟩ := Option.map_eq_some_iff.1 hbody
    cases he
    exact .decides List.mem_cons_self hinner
  | otherwise hbody =>
    cases hbody
    exact .bare List.mem_cons_self
  | elseIf hif hbody =>
    unfold elseIf? at hbody
    split at hbody
    · obtain ⟨inner, hinner, he⟩ := Option.map_eq_some_iff.1 hbody
      cases he
      refine .decides (List.mem_cons_of_mem _ List.mem_cons_self) ?_
      rw [actionText?, actionTokens?, if_neg (by decide), if_pos ⟨rfl, hif⟩]
      exact hinner
    · cases hbody
  | closes hbody =>
    unfold close? at hbody
    split at hbody
    · cases hbody
    · cases hbody
      exact .bare (List.mem_cons_of_mem _ List.mem_cons_self)
    · cases hbody
      exact .bare (List.mem_cons_of_mem _ (List.mem_cons_of_mem _ List.mem_cons_self))
  | opensLoop hbody =>
    obtain ⟨⟨names, action⟩, hnames, hbody⟩ := Option.bind_eq_some_iff.1 hbody
    obtain ⟨inner, hinner, hbody⟩ := Option.bind_eq_some_iff.1 hbody
    obtain ⟨dot, -, he⟩ := Option.map_eq_some_iff.1 hbody
    cases he
    refine .source hnames ?_
    rw [actionText?, actionTokens?, if_neg (by decide), if_neg (fun h => absurd h.1 (by decide)),
      if_pos rfl, hnames]
    exact hinner
  | declares hfirst hbody =>
    obtain ⟨name, hname, hbody⟩ := Option.bind_eq_some_iff.1 hbody
    obtain ⟨inner, hinner, he⟩ := Option.map_eq_some_iff.1 hbody
    cases he
    refine .assigned (isIdentifier_of_declared? hname) ?_
    rw [actionText?, actionTokens?_of_not_opensBlock hfirst]
    exact hinner
  | shows hfirst hbody =>
    obtain ⟨inner, hinner, he⟩ := Option.map_eq_some_iff.1 hbody
    cases he
    refine .shown ?_
    rw [actionText?, actionTokens?_of_shows hfirst]
    exact hinner

end Bodies

/-- What a tag becomes is a comment, or the text of its body. -/
theorem tag?_cases {s s' : Scope} {tag text : List Char} (h : s.tag? tag = some (text, s')) :
    (∃ rest, text = '{' :: '#' :: rest) ∨
      ∃ tokens body left right, tagTokens? tag = some tokens ∧ BodyOf s tokens body ∧
        text = body.text left right := by
  rcases tag?_eq_some h with ⟨-, -, hcomment⟩ | ⟨tokens, body, left, right, htokens, hbody, htext⟩
  · exact .inl hcomment
  · exact .inr ⟨tokens, body, left, right, htokens, body?_cases hbody, htext⟩

end Scope

end Runbook.Template.Action
