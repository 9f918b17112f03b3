import Runbook.Proofs.Template.Slots
/-!
# Comments

A comment of dot style becomes a comment of the template language, whose text stands between other
delimiters.  This file says what a text with a comment is filled in to.

* `CommentTag` — a comment as it is written, with the blanks and the trim markers around it;
* `CommentTag.tag?_written`, `CommentTag.normalize_written` — what it becomes: its markers are lost,
  and its text is taken over as it is;
* `Cut` — the end of a comment in the template language is the first place at which it can stand;
* `readComment_of_cut` — a comment is read with the dashes at its ends as trim markers, unless there
  is nothing else in it;
* `interpolate_of_comment` — what is shown of a text with a comment, and of the comment;
* `comments_trim_otherwise` — comments in which dashes and markers do not do what they do elsewhere.
-/

namespace Runbook.Template

open Runbook.Text

/-! ### Trim markers -/

namespace Action

/-- A trim marker, or none. -/
def marker (marked : Bool) : List Char :=
  if marked then ['-'] else []

theorem leadingMarker_of_ne {cs : List Char} (h : cs.head? ≠ some '-') :
    leadingMarker cs = (false, cs) := by
  unfold leadingMarker
  split
  · exact absurd rfl h
  · rfl

/-- A marker in front of a blank is found, and only a dash is one. -/
theorem leadingMarker_marker {marked : Bool} {before rest : List Char}
    (hbefore : ∀ c ∈ before, isBlank c = true) (hmarked : marked = true → before ≠ [])
    (hrest : rest.head? ≠ some '-') :
    leadingMarker (marker marked ++ (before ++ rest)) = (marked, before ++ rest) := by
  cases before with
  | nil =>
    cases marked with
    | true => exact absurd rfl (hmarked rfl)
    | false => exact leadingMarker_of_ne hrest
  | cons c before =>
    have hblank : isBlank c = true := hbefore c List.mem_cons_self
    cases marked with
    | true => exact if_pos hblank
    | false =>
      refine leadingMarker_of_ne fun he => ?_
      rw [Option.some.inj he] at hblank
      cases hblank

/-- So it is at the end. -/
theorem trailingMarker_marker {marked : Bool} {front after : List Char}
    (hafter : ∀ c ∈ after, isBlank c = true) (hmarked : marked = true → after ≠ [])
    (hfront : front.getLast? ≠ some '-') :
    trailingMarker (front ++ after ++ marker marked) = (marked, front ++ after) := by
  have hreverse : (front ++ after ++ marker marked).reverse
      = marker marked ++ (after.reverse ++ front.reverse) := by
    cases marked <;> simp [marker]
  rw [trailingMarker, hreverse, leadingMarker_marker]
  · simp
  · exact fun c hc => hafter c (List.mem_reverse.1 hc)
  · exact fun h he => hmarked h (List.reverse_eq_nil_iff.1 he)
  · rwa [List.head?_reverse]

end Action

/-! ### Comments as they are written -/

/-- A comment of the template language. -/
def commented (body : List Char) : List Char :=
  '{' :: '#' :: (body ++ ['#', '}'])

/-- A comment in a tag: its text, the blanks around it, and whether trim markers stand in front of
the first blank and behind the last one.  No closing braces stand in the text one behind the
other. -/
structure CommentTag where
  trimsLeft : Bool := false
  before : List Char := []
  body : List Char
  after : List Char := []
  trimsRight : Bool := false
  blank_before : ∀ c ∈ before, isBlank c = true
  blank_after : ∀ c ∈ after, isBlank c = true
  before_ne : trimsLeft = true → before ≠ [] := by decide
  after_ne : trimsRight = true → after ≠ [] := by decide
  single : contains ['}', '}'] body = false := by decide

namespace CommentTag

/-- The comment without its blanks. -/
def core (t : CommentTag) : List Char :=
  '/' :: '*' :: (t.body ++ ['*', '/'])

/-- The comment between the braces of its tag. -/
def inside (t : CommentTag) : List Char :=
  Action.marker t.trimsLeft ++ (t.before ++ t.core) ++ t.after ++ Action.marker t.trimsRight

/-- The comment as it is written. -/
def written (t : CommentTag) : List Char :=
  braced t.inside

theorem brace_not_mem_of_isBlank {cs : List Char} (h : ∀ c ∈ cs, isBlank c = true) : '}' ∉ cs := by
  intro hmem
  have hblank := h '}' hmem
  cases hblank

theorem brace_not_mem_marker (marked : Bool) : '}' ∉ Action.marker marked := by
  cases marked <;> decide

/-- The tag of a comment ends at its own braces. -/
theorem contains_inside (t : CommentTag) : contains ['}', '}'] (t.inside ++ ['}']) = false := by
  have hfront : '}' ∉ Action.marker t.trimsLeft ++ t.before ++ ['/', '*'] := by
    simp [brace_not_mem_marker, brace_not_mem_of_isBlank t.blank_before]
  have hback : '}' ∉ '/' :: (t.after ++ Action.marker t.trimsRight) := by
    simp [brace_not_mem_marker, brace_not_mem_of_isBlank t.blank_after]
  have hinside : t.inside ++ ['}'] = Action.marker t.trimsLeft ++ t.before ++ ['/', '*']
      ++ (t.body ++ '*' :: ('/' :: (t.after ++ Action.marker t.trimsRight) ++ ['}'])) := by
    simp [inside, core]
  rw [hinside, contains_braces_append hfront, contains_append_cons (by decide), t.single,
    contains_braces_append hback]
  rfl

theorem readTag?_written (t : CommentTag) (rest : List Char) :
    readTag? (t.written ++ rest) = some (t.written, rest) :=
  readTag?_braced t.contains_inside rest

/-- The last character of a comment is no dash. -/
theorem getLast?_core (t : CommentTag) (front : List Char) :
    (front ++ t.core).getLast? = some '/' := by
  have hcore : front ++ t.core = (front ++ '/' :: '*' :: (t.body ++ ['*'])) ++ ['/'] := by
    simp [core]
  rw [hcore, List.getLast?_concat]

theorem comment?_core (t : CommentTag) : Action.comment? t.core = some t.body := by
  have htail := dropTail?_append t.body ['*', '/']
  exact htail

/-- **What a comment becomes.**  The markers of the tag are found, and nothing is left of them. -/
theorem tag?_written (t : CommentTag) (s : Action.Scope) :
    s.tag? t.written = some (commented t.body, s) := by
  have hleft : Action.leadingMarker t.inside
      = (t.trimsLeft, t.before ++ t.core ++ t.after ++ Action.marker t.trimsRight) := by
    have hcore : (t.core ++ t.after ++ Action.marker t.trimsRight).head? ≠ some '-' := nofun
    have hmarker := Action.leadingMarker_marker t.blank_before t.before_ne hcore
    rw [inside]
    simpa using hmarker
  have hright : Action.trailingMarker (t.before ++ t.core ++ t.after ++ Action.marker t.trimsRight)
      = (t.trimsRight, t.before ++ t.core ++ t.after) := by
    refine Action.trailingMarker_marker t.blank_after t.after_ne ?_
    rw [getLast?_core]
    decide
  have htrim : Text.trim (t.before ++ t.core ++ t.after) = t.core := by
    have hlast := t.getLast?_core []
    refine trim_append t.blank_before t.blank_after (fun c hc => ?_) fun c hc => ?_
    · rw [← Option.some.inj hc]
      decide
    · rw [List.nil_append] at hlast
      rw [hlast] at hc
      rw [← Option.some.inj hc]
      decide
  show (dropTail? ['}', '}'] (t.inside ++ ['}', '}'])).bind _ = _
  rw [dropTail?_append, Option.bind_some]
  dsimp only
  rw [hleft]
  dsimp only
  rw [hright]
  dsimp only
  rw [htrim, comment?_core]
  rfl

/-- A text with a comment in the template language. -/
theorem normalize_written (t : CommentTag) (filters : List (List Char)) {front behind : List Char}
    (hfront : '{' ∉ front) (hbehind : '{' ∉ behind) :
    normalize filters (front ++ t.written ++ behind) = front ++ (commented t.body ++ behind) := by
  have hrest : normalizePieces { filters } (pieces behind) = behind := by
    have hpieces := pieces_append hbehind []
    have hchars := normalizePieces_chars { filters } behind []
    rw [List.append_nil, pieces] at hpieces
    rw [hpieces, hchars]
    exact List.append_nil behind
  rw [normalize, List.append_assoc, pieces_append hfront, normalizePieces_chars,
    pieces_tag t.readTag?_written, normalizePieces, tag?_written]
  dsimp only
  rw [hrest]

end CommentTag

/-! ### Comments of the template language -/

/-- The text of a comment, cut at the first place at which the comment can end: `hidden` is in front
of it, and `shown` is what is left behind it. -/
structure Cut (body hidden shown : List Char) : Prop where
  split : body ++ ['#', '}'] = hidden ++ ['#', '}'] ++ shown
  first : contains ['#', '}'] hidden = false

namespace Cut

/-- A text in which no comment ends is hidden as a whole. -/
theorem of_not_contains {body : List Char} (h : contains ['#', '}'] body = false) :
    Cut body body [] :=
  ⟨(List.append_nil _).symm, h⟩

/-- Every text is cut somewhere. -/
theorem exists_cut (body : List Char) : ∃ hidden shown, Cut body hidden shown := by
  induction body with
  | nil => exact ⟨[], [], rfl, rfl⟩
  | cons c body ih =>
    by_cases hend : ['#', '}'] <+: c :: body
    · obtain ⟨rest, hrest⟩ := hend
      refine ⟨[], rest ++ ['#', '}'], ?_, rfl⟩
      rw [← hrest]
      simp
    · obtain ⟨hidden, shown, hsplit, hfirst⟩ := ih
      refine ⟨c :: hidden, shown, ?_, ?_⟩
      · rw [List.cons_append, hsplit]
        simp
      · rw [contains, hfirst, Bool.or_false, Bool.eq_false_iff]
        intro hprefix
        rw [List.isPrefixOf_iff_prefix, List.cons_prefix_cons] at hprefix
        obtain ⟨rfl, more, hmore⟩ := hprefix
        rw [← hmore] at hsplit
        cases body with
        | nil => cases (List.cons.inj hsplit).1
        | cons d body =>
          obtain ⟨rfl, -⟩ := List.cons.inj hsplit
          exact hend ⟨body, rfl⟩

end Cut

/-- The end of a comment is where it is sought only when nothing else is left of the comment. -/
theorem readCommentEnd_append {cs : List Char} (h : contains ['#', '}'] cs = false)
    (rest : List Char) :
    readCommentEnd (cs ++ '#' :: '}' :: rest)
      = if cs = [] then some (false, rest) else if cs = ['-'] then some (true, rest) else none := by
  -- an end that starts in the text has its last character behind the text
  have hlater : ∀ before more found : List Char, cs = before ++ '#' :: more →
      more ++ '#' :: '}' :: rest ≠ '}' :: found := by
    rintro before (_ | ⟨c, more⟩) found rfl he
    · cases (List.cons.inj he).1
    · obtain ⟨rfl, -⟩ := List.cons.inj he
      have hpart : contains ['#', '}'] (before ++ '#' :: '}' :: more) = true :=
        contains_eq_true_iff.2 ⟨before, more, List.append_assoc before ['#', '}'] more⟩
      rw [h] at hpart
      cases hpart
  unfold readCommentEnd
  split
  · next found heq =>
    cases cs with
    | nil => cases (List.cons.inj heq).1
    | cons c cs =>
      obtain ⟨rfl, hrest⟩ := List.cons.inj heq
      cases cs with
      | nil =>
        cases hrest
        rfl
      | cons d cs =>
        obtain ⟨rfl, hlast⟩ := List.cons.inj hrest
        exact absurd hlast (hlater ['-'] cs found rfl)
  · next found heq =>
    cases cs with
    | nil =>
      cases heq
      rfl
    | cons c cs =>
      obtain ⟨rfl, hlast⟩ := List.cons.inj heq
      exact absurd hlast (hlater [] cs found rfl)
  · next hdash hbare =>
    have hne : cs ≠ [] := by
      rintro rfl
      exact hbare rest rfl
    have hnotDash : cs ≠ ['-'] := by
      rintro rfl
      exact hdash rest rfl
    rw [if_neg hne, if_neg hnotDash]

theorem close_append {cs : List Char} (h : contains ['#', '}'] cs = false) (rest : List Char) :
    readComment.close (cs ++ '#' :: '}' :: rest) = some (cs.getLast? == some '-', rest) := by
  induction cs with
  | nil => rfl
  | cons c cs ih =>
    have hback : contains ['#', '}'] cs = false := (Bool.or_eq_false_iff.1 h).2
    have hend := readCommentEnd_append h rest
    rw [if_neg (List.cons_ne_nil c cs)] at hend
    rw [List.cons_append] at hend ⊢
    rw [readComment.close, hend]
    by_cases hdash : c :: cs = ['-']
    · rw [if_pos hdash, hdash]
      rfl
    · rw [if_neg hdash]
      dsimp only
      rw [ih hback]
      cases cs with
      | nil =>
        have hc : c ≠ '-' := fun he => hdash (he ▸ rfl)
        simp [hc]
      | cons d cs => rfl

theorem readComment_dash (cs : List Char) :
    readComment ('{' :: '#' :: '-' :: cs)
      = if (readCommentEnd cs).isSome then none
        else (readComment.close cs).map fun (right, rest) => ({ left := true, right }, rest) := rfl

theorem readComment_of_ne {cs : List Char} (h : cs.head? ≠ some '-') :
    readComment ('{' :: '#' :: cs)
      = if (readCommentEnd cs).isSome then none
        else (readComment.close cs).map fun (right, rest) => ({ left := false, right }, rest) := by
  have hopen : ∀ more, cs ≠ '-' :: more := by
    rintro more rfl
    exact h rfl
  rw [readComment]
  · rfl
  · exact hopen

/-- The comments with nothing in them, which are not read. -/
def bareComments : List (List Char) := [[], ['-'], ['-', '-']]

/-- **How a comment is read.**  The dashes at its ends are trim markers. -/
theorem readComment_of_cut {body hidden shown : List Char} (h : Cut body hidden shown)
    (rest : List Char) :
    readComment (commented body ++ rest)
      = if hidden ∈ bareComments then none
        else some ({ left := hidden.head? == some '-', right := hidden.getLast? == some '-' },
          shown ++ rest) := by
  have hsplit : commented body ++ rest
      = '{' :: '#' :: (hidden ++ '#' :: '}' :: (shown ++ rest)) := by
    rw [commented, h.split]
    simp
  rw [hsplit]
  by_cases hdash : hidden.head? = some '-'
  · obtain ⟨more, rfl⟩ := List.head?_eq_some_iff.1 hdash
    have hmore : contains ['#', '}'] more = false := (Bool.or_eq_false_iff.1 h.first).2
    rw [List.cons_append, readComment_dash, readCommentEnd_append hmore, close_append hmore]
    by_cases hbare : more = [] ∨ more = ['-']
    · rcases hbare with rfl | rfl <;> rfl
    · obtain ⟨hne, hnotDash⟩ := not_or.1 hbare
      have hnotBare : '-' :: more ∉ bareComments := by simp [bareComments, hne, hnotDash]
      rw [if_neg hne, if_neg hnotDash, if_neg hnotBare, List.getLast?_cons_of_ne_nil hne]
      rfl
  · have hhead : (hidden ++ '#' :: '}' :: (shown ++ rest)).head? ≠ some '-' := by
      cases hidden with
      | nil => nofun
      | cons c more => exact hdash
    rw [readComment_of_ne hhead, readCommentEnd_append h.first, close_append h.first]
    by_cases hne : hidden = []
    · subst hne
      rfl
    · have hnotDash : hidden ≠ ['-'] := by
        rintro rfl
        exact hdash rfl
      have hnotBare : hidden ∉ bareComments := by
        intro hmem
        simp only [bareComments, List.mem_cons, List.not_mem_nil, or_false] at hmem
        rcases hmem with rfl | rfl | rfl
        · exact hne rfl
        · exact hdash rfl
        · exact hdash rfl
      rw [if_neg hne, if_neg hnotDash, if_neg hnotBare, beq_eq_false_iff_ne.2 hdash]
      rfl

/-! ### Texts with a comment -/

/-- The text in front of a comment, without the blanks at its end if a dash is the first thing that
the comment hides. -/
def trimmedBefore (hidden front : List Char) : List Char :=
  if hidden.head? = some '-' then trimEnd front else front

/-- The text behind a comment, without the blanks at its start if a dash is the last thing that the
comment hides. -/
def trimmedBehind (hidden behind : List Char) : List Char :=
  if hidden.getLast? = some '-' then trimStart behind else behind

theorem closeText_some (marked : Bool) (cs : List Char) :
    closeText marked (some cs) = textParts (if marked then trimEnd cs else cs) := by
  rw [closeText]
  generalize (if marked then trimEnd cs else cs) = rest
  cases rest <;> rfl

/-- The text around a comment is trimmed as its markers say. -/
theorem trimNodes_comment (trim : Trim) (front behind : List Char) :
    trimNodes (textParts front ++ .comment trim :: textParts behind)
      = textParts (if trim.left then trimEnd front else front)
        ++ .comment trim :: textParts (if trim.right then trimStart behind else behind) := by
  have hbehind : trimFrom trim.right none (textParts behind)
      = textParts (if trim.right then trimStart behind else behind) := by
    cases behind with
    | nil => cases trim.right <;> rfl
    | cons c behind => exact closeText_some false _
  rw [trimNodes, ← hbehind]
  cases front with
  | nil => cases trim.left <;> rfl
  | cons c front => exact congrArg (· ++ _) (closeText_some trim.left (c :: front))

/-- A template whose text runs up to a tag that cannot be read is not read to its end. -/
theorem ofChars?_of_unread {front rest : List Char} (h : '{' ∉ front) (hne : rest ≠ [])
    (hrest : readText rest = ([], rest))
    (hnode : ∀ fuel, readNode (fuel + 1) .top rest = none) : ofChars? (front ++ rest) = none := by
  have hstop : ∀ fuel, readNodes (fuel + 2) .top rest = ([], rest) := by
    intro fuel
    rw [readNodes, hnode]
  have hread : ∀ fuel, (readNodes (fuel + 3) .top (front ++ rest)).2 = rest := by
    intro fuel
    by_cases hfront : front = []
    · subst hfront
      rw [List.nil_append, hstop]
    · rw [readNodes, readNode_text h hfront hrest]
      dsimp only
      rw [hstop]
  rw [ofChars?]
  split
  · next nodes hall =>
    have hlength : 4 * (front ++ rest).length + 4 = 4 * (front ++ rest).length + 1 + 3 := rfl
    rw [hlength] at hall
    exact absurd ((hread _).symm.trans (congrArg Prod.snd hall)) hne
  · rfl

section Comment

variable (functions : ValueFunctions) (vars : Namespace)
  {front behind body hidden shown : List Char}
  (hfront : '{' ∉ front) (hcut : Cut body hidden shown)

include hfront hcut

/-- A comment without a text is not read, and neither is the template. -/
theorem renderPlain?_of_bare (hbare : hidden ∈ bareComments) :
    renderPlain? functions vars (front ++ (commented body ++ behind)) = none := by
  have hread := readComment_of_cut hcut behind
  rw [if_pos hbare] at hread
  have hnode : ∀ fuel, readNode (fuel + 1) .top (commented body ++ behind) = none := by
    intro fuel
    show (readComment (commented body ++ behind)).map _ = none
    rw [hread]
    rfl
  have hne : commented body ++ behind ≠ [] := List.cons_ne_nil _ _
  rw [renderPlain?, ofChars?_of_unread hfront hne rfl hnode]
  rfl

/-- Any other comment leaves the text around it, and what is left behind its end. -/
theorem renderPlain?_of_comment (hshown : '{' ∉ shown ++ behind) (hbare : hidden ∉ bareComments) :
    renderPlain? functions vars (front ++ (commented body ++ behind))
      = some (trimmedBefore hidden front ++ trimmedBehind hidden (shown ++ behind)) := by
  have hread := readComment_of_cut hcut behind
  rw [if_neg hbare] at hread
  generalize htrim : ({ left := hidden.head? == some '-', right := hidden.getLast? == some '-' }
    : Trim) = trim at hread
  have hbehind : ReadsAs 2 (shown ++ behind) (textParts (shown ++ behind)) := by
    have htext := (ReadsAs.nil 0).text hshown rfl
    rwa [List.append_nil, List.append_nil] at htext
  have hcomment : ReadsAs 4 (commented body ++ behind)
      (.comment trim :: textParts (shown ++ behind)) := by
    refine hbehind.cons fun fuel => ?_
    show (readComment (commented body ++ behind)).map _ = _
    rw [hread]
    rfl
  have hall := hcomment.text hfront rfl
    (4 * (front ++ (commented body ++ behind)).length + 4)
    (by simp only [commented, List.length_append, List.length_cons]; omega)
  have hnames : blockNames (textParts front ++ .comment trim :: textParts (shown ++ behind)) = [] ∧
      macroNames (textParts front ++ .comment trim :: textParts (shown ++ behind)) = [] := by
    cases front <;> cases shown ++ behind <;> exact ⟨rfl, rfl⟩
  rw [renderPlain?, ofChars?, hall]
  dsimp only
  rw [hnames.1, hnames.2, trimNodes_comment]
  show (renderNodes _ _ [{}]).map Prod.fst = _
  have hleft : (if trim.left then trimEnd front else front) = trimmedBefore hidden front := by
    rw [← htrim]
    simp [trimmedBefore]
  have hright : (if trim.right then trimStart (shown ++ behind) else shown ++ behind)
      = trimmedBehind hidden (shown ++ behind) := by
    rw [← htrim]
    simp [trimmedBehind]
  have hrender : ∀ c : Context, renderNodes c
      (.comment trim :: textParts (trimmedBehind hidden (shown ++ behind))) [{}]
      = some (trimmedBehind hidden (shown ++ behind), [{}], .next) := by
    intro c
    have hnone : renderNodes c [] [{}] = some ([], [{}], .next) := rfl
    have htext := renderNodes_textParts hnone (trimmedBehind hidden (shown ++ behind))
    rw [List.append_nil, List.append_nil] at htext
    show (renderNodes c _ [{}]).map _ = _
    rw [htext]
    rfl
  rw [hleft, hright, renderNodes_textParts (hrender _)]
  rfl

end Comment

/-- **Texts with a comment.**  Whatever markers stand in its tag:

* the text is rendered as the template in which the comment has the delimiters of the template
  language, and stays as it is when that cannot be read;
* the comment is hidden up to the first place at which it can end there, which is the whole of it
  if its text holds no such end, and what is behind that place shows if it opens no tag;
* the dashes at the ends of what is hidden trim the text around it, and nothing else does, and when
  nothing else is hidden, the text stays as it is, comment and all. -/
theorem interpolate_of_comment (functions : ValueFunctions) (vars : Namespace)
    {front behind : List Char} (t : CommentTag) (hfront : '{' ∉ front) (hbehind : '{' ∉ behind) :
    let text := String.ofList (front ++ t.written ++ behind)
    interpolate functions vars text
        = ((renderPlain? functions vars (front ++ (commented t.body ++ behind))).map
            String.ofList).getD text ∧
      ∃ hidden shown, Cut t.body hidden shown ∧
        (contains ['#', '}'] t.body = false → hidden = t.body ∧ shown = []) ∧
        ('{' ∉ shown →
          interpolate functions vars text
            = if hidden ∈ bareComments then text
              else String.ofList
                (trimmedBefore hidden front ++ trimmedBehind hidden (shown ++ behind))) := by
  intro text
  have hrender : interpolate functions vars text
      = ((renderPlain? functions vars (front ++ (commented t.body ++ behind))).map
          String.ofList).getD text := by
    have hlooks : looksLikeTemplate (front ++ t.written ++ behind) = true := by
      have hopens : contains ['{', '{'] (front ++ (t.written ++ behind)) = true :=
        contains_append_of_right rfl front
      rw [looksLikeTemplate, List.append_assoc, hopens]
      rfl
    rw [interpolate, String.toList_ofList, if_pos hlooks, render?_eq,
      t.normalize_written _ hfront hbehind]
    cases renderPlain? functions vars (front ++ (commented t.body ++ behind)) <;> rfl
  have hclosed : ∀ {hidden shown}, Cut t.body hidden shown → '{' ∉ shown →
      interpolate functions vars text
        = if hidden ∈ bareComments then text
          else String.ofList
            (trimmedBefore hidden front ++ trimmedBehind hidden (shown ++ behind)) := by
    intro hidden shown hcut hshown
    rw [hrender]
    by_cases hbare : hidden ∈ bareComments
    · rw [renderPlain?_of_bare functions vars hfront hcut hbare, if_pos hbare]
      rfl
    · have hrest : '{' ∉ shown ++ behind := fun hmem =>
        (List.mem_append.1 hmem).elim hshown hbehind
      rw [renderPlain?_of_comment functions vars hfront hcut hrest hbare, if_neg hbare]
      rfl
  refine ⟨hrender, ?_⟩
  by_cases hwhole : contains ['#', '}'] t.body = false
  · have hcut := Cut.of_not_contains hwhole
    exact ⟨t.body, [], hcut, fun _ => ⟨rfl, rfl⟩, hclosed hcut⟩
  · obtain ⟨hidden, shown, hcut⟩ := Cut.exists_cut t.body
    exact ⟨hidden, shown, hcut, fun h => absurd h hwhole, hclosed hcut⟩

/-- A note in a tag with trim markers. -/
def markedNote : CommentTag :=
  { trimsLeft := true, before := [' '], body := " note ".toList, after := [' '],
    trimsRight := true, blank_before := List.forall_mem_singleton.2 rfl,
    blank_after := List.forall_mem_singleton.2 rfl }

/-- The text around it keeps its blanks. -/
theorem interpolate_of_markedNote :
    interpolate [] [] "a \x7b\x7b- /* note */ -\x7d\x7d b" = "a  b" := by
  have hwritten : String.ofList ("a ".toList ++ markedNote.written ++ " b".toList)
      = "a \x7b\x7b- /* note */ -\x7d\x7d b" := by decide +kernel
  obtain ⟨-, hidden, shown, -, hwhole, hclosed⟩ := interpolate_of_comment [] [] markedNote
    (show '{' ∉ "a ".toList by decide) (show '{' ∉ " b".toList by decide)
  obtain ⟨rfl, rfl⟩ := hwhole (by decide)
  rw [hwritten] at hclosed
  exact (hclosed nofun).trans (by decide +kernel)

/-- Comments trim otherwise than the tags around them: markers that trim the text around any other
tag do nothing, dashes in the text of a comment trim instead, the comment shows from the first end
of a comment of the template language on, and a comment without a text shows as a whole. -/
theorem comments_trim_otherwise :
    (interpolate [] [] "a \x7b\x7b- /* note */ -\x7d\x7d b" = "a  b" ∧
      String.ofList (trimEnd "a ".toList ++ trimStart " b".toList) = "ab" ∧
      interpolate [] [("x", .str "x")] "a \x7b\x7b- .x -\x7d\x7d b" = "axb") ∧
    interpolate [] [] "a \x7b\x7b/*- note -*/\x7d\x7d b" = "ab" ∧
    interpolate [] [] "a\x7b\x7b/* x #\x7d y */\x7d\x7db" = "a y #\x7db" ∧
    interpolate [] [] "a\x7b\x7b/**/\x7d\x7db" = "a\x7b\x7b/**/\x7d\x7db" := by
  decide +kernel

end Runbook.Template
