import Runbook.Proofs.Template.References
import Runbook.Proofs.Text.Encoding
/-!
# The blocks that tags open and close

One scope goes through all tags of a template.  What the tags become opens and closes blocks of the
template language, and the scope knows which of them are open.

* `Scope.after`, `Scope.translations` — the scope behind some tags, and what they become;
* `mark?` — what a tag of the template language does to the blocks around it, as that language reads
  the tag;
* `nest?`, `nestAll?` — the blocks that are open behind one tag and behind many; nothing when a tag
  closes no block, or one of another kind;
* `Mirrors` — a scope knows the blocks that are open in the emitted text, and the names of their
  elements;
* `Scope.turns_of_tag?` — what one tag does to the scope, and `Scope.nestAll?_emitted` — what all
  tags of a template do;
* `tags_nest_blocks` — tags that are not translated leave no trace, the emitted blocks are nested, a
  leading dot is the element of the innermost loop, and generated names do not meet.
-/

namespace Runbook.Template.Action

open Runbook.Text

/-! ### Sequences of tags -/

namespace Scope

/-- What a tag becomes. -/
def text? (s : Scope) (tag : List Char) : Option (List Char) :=
  (s.tag? tag).map Prod.fst

/-- The scope behind a tag, which is the one before it if the tag is not translated. -/
def behind (s : Scope) (tag : List Char) : Scope :=
  ((s.tag? tag).map Prod.snd).getD s

/-- The scope behind tags. -/
def after (s : Scope) (tags : List (List Char)) : Scope :=
  tags.foldl behind s

/-- Tags with what they become. -/
def translations (s : Scope) : List (List Char) → List (List Char × Option (List Char))
  | [] => []
  | tag :: rest => (tag, s.text? tag) :: (s.behind tag).translations rest

/-- The tags that are translated, with what they become. -/
def emitted (s : Scope) (tags : List (List Char)) : List (List Char × List Char) :=
  (s.translations tags).filterMap fun (tag, text?) => text?.map fun text => (tag, text)

variable {s s' : Scope} {tag text : List Char}

theorem behind_of_none (h : s.text? tag = none) : s.behind tag = s := by
  rw [behind, Option.map_eq_none_iff.1 h]
  rfl

theorem behind_of_some (h : s.tag? tag = some (text, s')) : s.behind tag = s' := by
  rw [behind, h]
  rfl

theorem text?_of_some (h : s.tag? tag = some (text, s')) : s.text? tag = some text := by
  rw [text?, h]
  rfl

theorem after_cons (s : Scope) (tag : List Char) (rest : List (List Char)) :
    s.after (tag :: rest) = (s.behind tag).after rest :=
  rfl

theorem translations_append (s : Scope) (front rest : List (List Char)) :
    s.translations (front ++ rest) = s.translations front ++ (s.after front).translations rest := by
  induction front generalizing s with
  | nil => rfl
  | cons tag front ih => exact congrArg _ (ih (s.behind tag))

theorem emitted_cons_of_none (h : s.text? tag = none) (rest : List (List Char)) :
    s.emitted (tag :: rest) = s.emitted rest := by
  simp only [emitted, translations, h, behind_of_none h, List.filterMap_cons, Option.map_none]

theorem emitted_cons_of_some (h : s.tag? tag = some (text, s')) (rest : List (List Char)) :
    s.emitted (tag :: rest) = (tag, text) :: s'.emitted rest := by
  simp only [emitted, translations, text?_of_some h, behind_of_some h, List.filterMap_cons,
    Option.map_some]

/-- **A tag that is not translated leaves no trace**: the tags behind it become what they become
without it. -/
theorem translations_of_none (s : Scope) {front : List (List Char)}
    (h : (s.after front).text? tag = none) (rest : List (List Char)) :
    s.translations (front ++ tag :: rest)
        = s.translations front ++ (tag, none) :: (s.after front).translations rest ∧
      s.translations (front ++ rest)
        = s.translations front ++ (s.after front).translations rest := by
  refine ⟨?_, s.translations_append front rest⟩
  rw [translations_append, translations, h, behind_of_none h]

end Scope

/-- The tags of a template. -/
def tagsOf (ps : List Piece) : List (List Char) :=
  ps.filterMap fun
    | .char _ => none
    | .tag tag => some tag

theorem tagsOf_tag (tag : List Char) (rest : List Piece) :
    tagsOf (.tag tag :: rest) = tag :: tagsOf rest :=
  rfl

/-- In a template the pieces behind others are translated in the scope behind the tags of these. -/
theorem normalizePieces_append (s : Scope) (front rest : List Piece) :
    normalizePieces s (front ++ rest)
      = normalizePieces s front ++ normalizePieces (s.after (tagsOf front)) rest := by
  induction front generalizing s with
  | nil => rfl
  | cons piece front ih =>
    cases piece with
    | char c => exact congrArg (c :: ·) (ih s)
    | tag tag =>
      rw [List.cons_append, normalizePieces, normalizePieces]
      rcases htag : s.tag? tag with _ | ⟨text, s'⟩
      · have hbehind : s.behind tag = s :=
          Scope.behind_of_none (Option.map_eq_none_iff.2 htag)
        dsimp only
        rw [ih, List.append_assoc, tagsOf_tag, Scope.after_cons, hbehind]
      · dsimp only
        rw [ih, List.append_assoc, tagsOf_tag, Scope.after_cons, Scope.behind_of_some htag]

/-! ### Marks -/

/-- What a tag of the template language does to the blocks around it. -/
inductive Mark where
  | opensCond
  | opensLoop (item : List Char)
  | closesCond
  | closesLoop
deriving DecidableEq, Repr

/-- The mark of an emitted tag, read as the template language reads the start of a tag.  A comment
is one tag, whatever it holds. -/
def mark? (text : List Char) : Option Mark :=
  if (readTagWord "if" text).isSome then some .opensCond
  else if (readBareTag "endif" text).isSome then some .closesCond
  else if (readBareTag "endfor" text).isSome then some .closesLoop
  else
    (readTagWord "for" text).bind fun (_, rest) =>
      (readLoopNames rest).map fun ((_, item), _) => .opensLoop item.toList

/-- Whether a mark opens a block. -/
def Mark.opens : Mark → Bool
  | .opensCond => true
  | .opensLoop _ => true
  | _ => false

/-- A block that is open in the emitted text: a condition, or a loop with the name of its element
and whether this name was generated. -/
inductive Opened where
  | cond
  | loop (item : List Char) (generated : Bool)
deriving DecidableEq, Repr

/-- The name of the element of the innermost loop. -/
def current? (stack : List Opened) : Option (List Char) :=
  stack.findSome? fun
    | .loop item _ => some item
    | .cond => none

/-- The generated names of the open loops. -/
def generatedNames (stack : List Opened) : List (List Char) :=
  stack.filterMap fun
    | .loop item true => some item
    | _ => none

/-- Whether the tokens behind the word of a loop declare names. -/
def declares : List Token → Bool
  | .word _ :: .declare :: _ => true
  | .word _ :: .comma :: .word _ :: .declare :: _ => true
  | _ => false

/-- Whether a tag of a loop declares no names. -/
def unnamed (tag : List Char) : Bool :=
  match Scope.tagTokens? tag with
  | some (_ :: rest) => !declares rest
  | _ => false

/-- The blocks that are open behind an emitted tag; nothing when it closes no block or one of
another kind. -/
def nest? (tag text : List Char) (stack : List Opened) : Option (List Opened) :=
  match mark? text, stack with
  | none, stack => some stack
  | some .opensCond, stack => some (.cond :: stack)
  | some (.opensLoop item), stack => some (.loop item (unnamed tag) :: stack)
  | some .closesCond, .cond :: below => some below
  | some .closesLoop, .loop _ _ :: below => some below
  | some _, _ => none

/-- The blocks that are open behind emitted tags. -/
def nestAll? : List (List Char × List Char) → List Opened → Option (List Opened)
  | [], stack => some stack
  | (tag, text) :: rest, stack => (nest? tag text stack).bind (nestAll? rest)

/-- Whether an emitted tag opens a block, or whether it closes one. -/
def isMarked (opens : Bool) (emitted : List Char × List Char) : Bool :=
  (mark? emitted.2).any fun mark => mark.opens == opens

/-- One tag opens a block, closes one, or does neither. -/
theorem length_of_nest? {tag text : List Char} {stack stack' : List Opened}
    (h : nest? tag text stack = some stack') :
    (if isMarked true (tag, text) then 1 else 0) + stack.length
      = (if isMarked false (tag, text) then 1 else 0) + stack'.length := by
  unfold nest? at h
  split at h
  case h_6 => cases h
  all_goals
    next hmark =>
      cases h
      simp [isMarked, hmark, Mark.opens, Nat.add_comm]

/-- Every block that was opened has been closed or is open. -/
theorem countP_of_nestAll? {tags : List (List Char × List Char)} {stack stack' : List Opened}
    (h : nestAll? tags stack = some stack') :
    tags.countP (isMarked true) + stack.length
      = tags.countP (isMarked false) + stack'.length := by
  induction tags generalizing stack with
  | nil =>
    cases h
    rfl
  | cons emitted rest ih =>
    obtain ⟨tag, text⟩ := emitted
    obtain ⟨inside, hone, hrest⟩ := Option.bind_eq_some_iff.1 h
    have hfirst := length_of_nest? hone
    have hlater := ih hrest
    simp only [List.countP_cons]
    omega

/-! ### Scopes and stacks -/

/-- The name that a loop generates when `below` loops are open. -/
def numbered (below : Nat) : List Char :=
  "__it".toList ++ (natText (below + 1)).toList

theorem numbered_inj {n m : Nat} (h : numbered n = numbered m) : n = m := by
  have hdigits : (natText (n + 1)).toList = (natText (m + 1)).toList :=
    List.append_cancel_left h
  have hnumber : n + 1 = m + 1 := natText_inj (String.toList_inj.1 hdigits)
  omega

/-- The number of loops among blocks. -/
def loopsAmong (blocks : List Block) : Nat :=
  Scope.loops { filters := [], blocks }

/-- The open blocks of a scope are those of the emitted text, and a generated name tells how many
loops stand around its own. -/
inductive Mirrors : List Opened → List Block → Prop where
  | nil : Mirrors [] []
  | cond {stack : List Opened} {blocks : List Block} (h : Mirrors stack blocks) :
    Mirrors (.cond :: stack) (.cond :: blocks)
  | loop {stack : List Opened} {blocks : List Block} {item : List Char} {generated : Bool}
    (h : Mirrors stack blocks) (hitem : generated = true → item = numbered (loopsAmong blocks)) :
    Mirrors (.loop item generated :: stack) (.loop item :: blocks)

namespace Mirrors

variable {stack : List Opened} {blocks : List Block}

/-- The element of the innermost loop. -/
theorem current? (h : Mirrors stack blocks) (filters : List (List Char)) :
    Scope.dot? { filters, blocks } = current? stack := by
  induction h with
  | nil => rfl
  | cond h ih => exact ih
  | loop h hitem ih => rfl

/-- The generated names are numbered below the next one. -/
theorem numbered_of_mem (h : Mirrors stack blocks) :
    ∀ name ∈ generatedNames stack, ∃ n < loopsAmong blocks, name = numbered n := by
  induction h with
  | nil =>
    intro name hmem
    cases hmem
  | cond h ih => exact ih
  | @loop stack blocks item generated h hitem ih =>
    have hmore : loopsAmong (.loop item :: blocks) = loopsAmong blocks + 1 := by
      simp [loopsAmong, Scope.loops]
    have hinside : ∀ name ∈ generatedNames stack,
        ∃ n < loopsAmong (.loop item :: blocks), name = numbered n := by
      intro name hmem
      obtain ⟨n, hn, hname⟩ := ih name hmem
      exact ⟨n, by omega, hname⟩
    cases generated with
    | false => exact hinside
    | true =>
      intro name hmem
      rcases List.mem_cons.1 hmem with rfl | hmem
      · exact ⟨loopsAmong blocks, by omega, hitem rfl⟩
      · exact hinside name hmem

/-- No two open loops have generated the same name. -/
theorem nodup (h : Mirrors stack blocks) : (generatedNames stack).Nodup := by
  induction h with
  | nil => exact List.nodup_nil
  | cond h ih => exact ih
  | @loop stack blocks item generated h hitem ih =>
    cases generated with
    | false => exact ih
    | true =>
      refine List.nodup_cons.2 ⟨fun hmem => ?_, ih⟩
      obtain ⟨n, hn, hname⟩ := h.numbered_of_mem item hmem
      have hsame : n = loopsAmong blocks := numbered_inj (hname.symm.trans (hitem rfl))
      omega

end Mirrors

/-! ### One tag -/

/-- What a tag does to the scope in which it is translated, by its mark. -/
inductive Turns (s : Scope) (tag : List Char) : Option Mark → Scope → Prop where
  | stays : Turns s tag none s
  | opensCond : Turns s tag (some .opensCond) { s with blocks := .cond :: s.blocks }
  | opensLoop {item : List Char}
    (hitem : unnamed tag = true → item = numbered (loopsAmong s.blocks)) :
    Turns s tag (some (.opensLoop item)) { s with blocks := .loop item :: s.blocks }
  | closesCond {below : List Block} (h : s.blocks = .cond :: below) :
    Turns s tag (some .closesCond) { s with blocks := below }
  | closesLoop {dot : List Char} {below : List Block} (h : s.blocks = .loop dot :: below) :
    Turns s tag (some .closesLoop) { s with blocks := below }

/-- A tag nests its block into those that are open, and the scope follows. -/
theorem Turns.nest? {s s' : Scope} {tag text : List Char} (h : Turns s tag (mark? text) s')
    {stack : List Opened} (hmirrors : Mirrors stack s.blocks) :
    ∃ stack', nest? tag text stack = some stack' ∧ Mirrors stack' s'.blocks := by
  unfold Action.nest?
  generalize mark? text = mark at h
  cases h with
  | stays => exact ⟨stack, rfl, hmirrors⟩
  | opensCond => exact ⟨.cond :: stack, rfl, hmirrors.cond⟩
  | opensLoop hitem => exact ⟨_, rfl, hmirrors.loop hitem⟩
  | closesCond hblocks =>
    rw [hblocks] at hmirrors
    cases hmirrors with
    | cond hbelow => exact ⟨_, rfl, hbelow⟩
  | closesLoop hblocks =>
    rw [hblocks] at hmirrors
    cases hmirrors with
    | loop hbelow hitem => exact ⟨_, rfl, hbelow⟩

/-! ### Marks of what tags become -/

section Marks

variable {left right : Bool} {inner : List Char}

theorem mark?_expression : mark? ((TagBody.expression inner).text left right) = none := by
  cases left <;> rfl

theorem mark?_comment (rest : List Char) : mark? ('{' :: '#' :: rest) = none := rfl

/-- Other statements leave the blocks alone. -/
theorem mark?_other {word : List Char} (h : word ∈ ["elif ".toList, "set ".toList, "else".toList])
    (rest : List Char) : mark? ((TagBody.statement (word ++ rest)).text left right) = none := by
  simp only [List.mem_cons, List.not_mem_nil, or_false] at h
  rcases h with rfl | rfl | rfl <;> cases left <;> rfl

theorem mark?_cond :
    mark? ((TagBody.statement ("if ".toList ++ inner)).text left right) = some .opensCond := by
  cases left <;> rfl

theorem mark?_endif :
    mark? ((TagBody.statement "endif".toList).text left right) = some .closesCond := by
  cases left <;> cases right <;> rfl

theorem mark?_endfor :
    mark? ((TagBody.statement "endfor".toList).text left right) = some .closesLoop := by
  cases left <;> cases right <;> rfl

/-- The start of a loop is read up to the name of its element. -/
theorem mark?_loop {s : Scope} {tokens rest : List Token} {names : List (List Char)}
    {dot : List Char} (hnames : loopNames? s tokens = some (names, rest))
    (hdot : names.getLast? = some dot) :
    mark? ((TagBody.statement ("for ".toList ++ joinWith [',', ' '] names ++ " in ".toList
      ++ inner)).text left right) = some (.opensLoop dot) := by
  obtain ⟨found, hread, hskip, hitem⟩ := readLoopNames_names hnames
    ('i' :: 'n' :: ' ' :: (inner ++ ' ' :: ending '%' right))
  rw [hdot, Option.map_some, Option.some.injEq] at hitem
  have htext : (TagBody.statement ("for ".toList ++ joinWith [',', ' '] names ++ " in ".toList
      ++ inner)).text left right
      = opening '%' left ++ ' ' :: 'f' :: 'o' :: 'r' :: ' ' ::
        (joinWith [',', ' '] names
          ++ ' ' :: 'i' :: 'n' :: ' ' :: (inner ++ ' ' :: ending '%' right)) := by
    have hempty := statement_append left right ("for ".toList ++ joinWith [',', ' '] names
      ++ " in ".toList ++ inner) []
    simp only [List.append_nil, List.append_assoc] at hempty ⊢
    exact hempty
  have hword : readTagWord "for" (opening '%' left ++ ' ' :: 'f' :: 'o' :: 'r' :: ' ' ::
      (joinWith [',', ' '] names
        ++ ' ' :: 'i' :: 'n' :: ' ' :: (inner ++ ' ' :: ending '%' right)))
      = some (left, joinWith [',', ' '] names
        ++ ' ' :: 'i' :: 'n' :: ' ' :: (inner ++ ' ' :: ending '%' right)) := by
    rw [readTagWord_of_some rfl, hskip]
  have hother : mark? (opening '%' left ++ ' ' :: 'f' :: 'o' :: 'r' :: ' ' ::
      (joinWith [',', ' '] names
        ++ ' ' :: 'i' :: 'n' :: ' ' :: (inner ++ ' ' :: ending '%' right)))
      = (readTagWord "for" (opening '%' left ++ ' ' :: 'f' :: 'o' :: 'r' :: ' ' ::
      (joinWith [',', ' '] names
        ++ ' ' :: 'i' :: 'n' :: ' ' :: (inner ++ ' ' :: ending '%' right)))).bind
        fun (_, rest) => (readLoopNames rest).map fun ((_, item), _) => .opensLoop item.toList := by
    cases left <;> rfl
  rw [htext, hother, hword, Option.bind_some]
  dsimp only
  rw [hread, Option.map_some, ← hitem, String.toList_ofList]

end Marks

/-- A loop that declares no names generates one. -/
theorem loopNames?_of_not_declares {s : Scope} {tokens : List Token}
    (h : declares tokens = false) :
    loopNames? s tokens = some ([numbered (loopsAmong s.blocks)], tokens) := by
  unfold loopNames?
  split
  · cases h
  · cases h
  · rfl

namespace Scope

variable {s s' : Scope} {tag text : List Char} {tokens : List Token} {body : TagBody}

/-- What the tokens of a tag do to the scope. -/
theorem turns_of_body? (htokens : tagTokens? tag = some tokens)
    (h : s.body? tokens = some (body, s')) (left right : Bool) :
    Turns s tag (mark? (body.text left right)) s' := by
  cases makesBody_of_body? h with
  | opensCondition hbody =>
    obtain ⟨inner, -, he⟩ := Option.map_eq_some_iff.1 hbody
    cases he
    rw [mark?_cond]
    exact .opensCond
  | otherwise hbody =>
    cases hbody
    have helse : mark? ((TagBody.statement ("else".toList ++ [])).text left right) = none :=
      mark?_other (by decide) []
    rw [List.append_nil] at helse
    rw [helse]
    exact .stays
  | elseIf hif hbody =>
    -- a further branch stays in its block
    unfold elseIf? at hbody
    split at hbody
    · obtain ⟨inner, -, he⟩ := Option.map_eq_some_iff.1 hbody
      cases he
      rw [mark?_other (by decide)]
      exact .stays
    · cases hbody
  | closes hbody =>
    unfold close? at hbody
    split at hbody
    · cases hbody
    · next hblocks =>
      cases hbody
      rw [mark?_endif]
      exact .closesCond hblocks
    · next hblocks =>
      cases hbody
      rw [mark?_endfor]
      exact .closesLoop hblocks
  | opensLoop hbody =>
    obtain ⟨⟨names, behind⟩, hnames, hbody⟩ := Option.bind_eq_some_iff.1 hbody
    obtain ⟨inner, -, hbody⟩ := Option.bind_eq_some_iff.1 hbody
    obtain ⟨dot, hdot, he⟩ := Option.map_eq_some_iff.1 hbody
    cases he
    rw [mark?_loop hnames hdot]
    refine .opensLoop fun hunnamed => ?_
    unfold unnamed at hunnamed
    rw [htokens, Bool.not_eq_true'] at hunnamed
    rw [loopNames?_of_not_declares hunnamed] at hnames
    cases hnames
    cases hdot
    rfl
  | declares hfirst hbody =>
    obtain ⟨name, -, hbody⟩ := Option.bind_eq_some_iff.1 hbody
    obtain ⟨inner, -, he⟩ := Option.map_eq_some_iff.1 hbody
    cases he
    rw [List.append_assoc, List.append_assoc, mark?_other (by decide)]
    exact .stays
  | shows hfirst hbody =>
    obtain ⟨inner, -, he⟩ := Option.map_eq_some_iff.1 hbody
    cases he
    rw [mark?_expression]
    exact .stays

/-- **What one tag does to the scope.** -/
theorem turns_of_tag? (h : s.tag? tag = some (text, s')) : Turns s tag (mark? text) s' := by
  rcases tag?_eq_some h with ⟨-, rfl, rest, rfl⟩ | ⟨tokens, body, left, right, htokens, hbody, rfl⟩
  · rw [mark?_comment]
    exact .stays
  · exact turns_of_body? htokens hbody left right

/-! ### All tags of a template -/

/-- **What tags do to the scope**: every block that they close is the one that is open, and the
scope behind them knows the blocks that are open in the emitted text. -/
theorem nestAll?_emitted (tags : List (List Char)) {stack : List Opened}
    (h : Mirrors stack s.blocks) :
    ∃ stack', nestAll? (s.emitted tags) stack = some stack' ∧
      Mirrors stack' (s.after tags).blocks := by
  induction tags generalizing s stack with
  | nil => exact ⟨stack, rfl, h⟩
  | cons tag rest ih =>
    rcases htag : s.tag? tag with _ | ⟨text, s'⟩
    · have hnone : s.text? tag = none := Option.map_eq_none_iff.2 htag
      rw [emitted_cons_of_none hnone, after_cons, behind_of_none hnone]
      exact ih h
    · rw [emitted_cons_of_some htag, after_cons, behind_of_some htag]
      obtain ⟨inside, hone, hinside⟩ := (turns_of_tag? htag).nest? h
      obtain ⟨stack', hmore, hmirrors⟩ := ih hinside
      refine ⟨stack', ?_, hmirrors⟩
      rw [nestAll?, hone, Option.bind_some]
      exact hmore

/-- A path off the current element, and off the namespace if there is none. -/
def offElement (current? : Option (List Char)) (path : List Char) : List Char :=
  match current? with
  | some current => current ++ '.' :: path
  | none => path

/-- What a leading dot is written as in a scope, where `current?` is the element of the innermost
loop: as that element and off it, and outside all loops as the namespace and off it. -/
structure Dots (s : Scope) (current? : Option (List Char)) : Prop where
  self : s.word? ['.'] = some (current?.getD root)
  field : ∀ path, isPath path = true → s.word? ('.' :: path) = some (offElement current? path)
  shown : ∀ tag rest text, tagTokens? tag = some [.word ('.' :: rest)] →
    s.word? ('.' :: rest) = some text →
      ∃ left right, s.tag? tag = some ((TagBody.expression text).text left right, s)

/-- A tag that is a word with a leading dot shows what the word is written as. -/
theorem tag?_of_dot {rest : List Char} (htokens : tagTokens? tag = some [.word ('.' :: rest)])
    (hword : s.word? ('.' :: rest) = some text) :
    ∃ left right, s.tag? tag = some ((TagBody.expression text).text left right, s) := by
  obtain ⟨opened, hopen, h⟩ := Option.bind_eq_some_iff.1 htokens
  obtain ⟨inside, hclose, hscan⟩ := Option.bind_eq_some_iff.1 h
  have hbody : s.body? [.word ('.' :: rest)] = some (.expression text, s) := by
    show (s.pipeline? [.word ('.' :: rest)]).map (fun text => (TagBody.expression text, s)) = _
    rw [pipeline?_word (isFunctionName_of_dot rest), hword]
    rfl
  refine ⟨(leadingMarker inside).1, (trailingMarker (leadingMarker inside).2).1, ?_⟩
  rw [tag?, hopen, Option.bind_some, hclose, Option.bind_some]
  dsimp only
  split
  · next hcomment =>
    rw [scan?_of_comment hcomment] at hscan
    cases hscan
  · rw [hscan, Option.bind_some, hbody]
    rfl

theorem dots (s : Scope) : s.Dots s.dot? where
  self := rfl
  field _ hpath := word?_dot hpath
  shown _ _ _ htokens hword := tag?_of_dot htokens hword

end Scope

/-- **The blocks that the tags of a template open and close.**

* A tag that is not translated leaves no trace: all tags behind it become what they become without
  it.
* Every block that an emitted tag closes is the innermost one that is open, and of the kind that the
  tag closes, so up to any tag there are at most as many closers as openers.
* A leading dot is the element of the innermost loop that is open, whatever conditions are open
  inside it, and the namespace when no loop is open.
* Loops that are open at the same time have not generated the same name. -/
theorem tags_nest_blocks (filters : List (List Char)) (tags : List (List Char)) :
    (∀ front tag rest, tags = front ++ tag :: rest →
      (Scope.after { filters } front).text? tag = none →
        ∃ later, Scope.translations { filters } tags
            = Scope.translations { filters } front ++ (tag, none) :: later ∧
          Scope.translations { filters } (front ++ rest)
            = Scope.translations { filters } front ++ later) ∧
    ∃ stack, nestAll? (Scope.emitted { filters } tags) [] = some stack ∧
      (Scope.emitted { filters } tags).countP (isMarked false)
        ≤ (Scope.emitted { filters } tags).countP (isMarked true) ∧
      (Scope.after { filters } tags).Dots (current? stack) ∧
      (generatedNames stack).Nodup := by
  constructor
  · rintro front tag rest rfl hnone
    exact ⟨_, Scope.translations_of_none { filters } hnone rest⟩
  · obtain ⟨stack, hstack, hmirrors⟩ :=
      Scope.nestAll?_emitted (s := { filters }) tags Mirrors.nil
    refine ⟨stack, hstack, ?_, ?_, hmirrors.nodup⟩
    · have hcount := countP_of_nestAll? hstack
      simp only [List.length_nil] at hcount
      omega
    · have hcurrent := hmirrors.current? (Scope.after { filters } tags).filters
      rw [← hcurrent]
      exact (Scope.after { filters } tags).dots

/-- A loop without a name for its elements, an addition, which is not translated, and a condition
with a reference inside it. -/
def rangeTags : List (List Char) :=
  ["\x7b\x7b range .hosts \x7d\x7d", "\x7b\x7b .n + 1 \x7d\x7d", "\x7b\x7b if .up \x7d\x7d",
    "\x7b\x7b .name \x7d\x7d"].map String.toList

/-- The reference is off the generated name, with the addition and without it. -/
theorem tags_nest_blocks_of_range :
    nestAll? (Scope.emitted { filters := [] } rangeTags) []
        = some [.cond, .loop "__it1".toList true] ∧
      (Scope.after { filters := [] } rangeTags).Dots (some "__it1".toList) ∧
      ∃ later, Scope.translations { filters := [] } rangeTags
          = Scope.translations { filters := [] } (rangeTags.take 1)
            ++ ("\x7b\x7b .n + 1 \x7d\x7d".toList, none) :: later ∧
        Scope.translations { filters := [] } (rangeTags.eraseIdx 1)
          = Scope.translations { filters := [] } (rangeTags.take 1) ++ later := by
  have hopen : nestAll? (Scope.emitted { filters := [] } rangeTags) []
      = some [.cond, .loop "__it1".toList true] := by
    decide +kernel
  obtain ⟨hsilent, stack, hstack, -, hdots, -⟩ := tags_nest_blocks [] rangeTags
  rw [hopen] at hstack
  cases hstack
  exact ⟨hopen, hdots, hsilent (rangeTags.take 1) _ (rangeTags.drop 2) rfl (by decide +kernel)⟩

end Runbook.Template.Action
