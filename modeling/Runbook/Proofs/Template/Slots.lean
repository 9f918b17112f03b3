import Runbook.Proofs.Template.LeadingDots
import Runbook.Proofs.Template.Plain
import Runbook.Proofs.Template.Shown
import Runbook.Proofs.Text.Cutting
/-!
# Texts with slots

A text whose tags each show a reference, filled in from a namespace.

* `pieces_append`, `readTag?_braced` — where the tags of such a text are;
* `tag?_spaced` — a tag between blanks becomes what its tokens make, without trim markers;
* `ReadsAs` — a template is read as some parts, up to its end;
* `Slot` — a tag that shows a reference, and the text behind it; `interpolate_of_slots` — the values
  stand in the text as they are;
* `interpolate_inserts_values` — so do the entries of the namespace in the places of their names.

Only the text in front of rendering is read as a template.  What a value holds is not read, whatever
it looks like.
-/

namespace Runbook.Template

open Runbook.Text

/-! ### The tags of a text -/

theorem readTag?_of_ne {c : Char} (h : c ≠ '{') (rest : List Char) :
    readTag? (c :: rest) = none := by
  unfold readTag?
  split
  · next heq => exact absurd (List.cons.inj heq).1 h
  · next heq => exact absurd (List.cons.inj heq).1 h
  · rfl

/-- Text without opening braces holds no tag. -/
theorem pieces_append {front : List Char} (h : '{' ∉ front) (rest : List Char) :
    pieces (front ++ rest) = front.map Piece.char ++ pieces rest := by
  induction front with
  | nil => rfl
  | cons c front ih =>
    have hc : c ≠ '{' := fun he => h (he ▸ List.mem_cons_self)
    rw [List.cons_append, pieces]
    split
    · next hread =>
      rw [readTag?_of_ne hc] at hread
      cases hread
    · rw [ih fun hmem => h (List.mem_cons_of_mem _ hmem)]
      rfl

/-- A tag at the front is the first piece. -/
theorem pieces_tag {tag : List Char} (hread : ∀ rest, readTag? (tag ++ rest) = some (tag, rest))
    (rest : List Char) : pieces (tag ++ rest) = .tag tag :: pieces rest := by
  cases tag with
  | nil => exact absurd rfl (readTag?_eq_some (hread [])).2
  | cons c cs =>
    have hfound := hread rest
    rw [List.cons_append] at hfound ⊢
    rw [pieces]
    split
    · next hsome =>
      rw [hfound] at hsome
      cases hsome
      rfl
    · next hnone =>
      rw [hfound] at hnone
      cases hnone

theorem normalizePieces_chars (s : Action.Scope) (front : List Char) (ps : List Piece) :
    normalizePieces s (front.map Piece.char ++ ps) = front ++ normalizePieces s ps := by
  induction front with
  | nil => rfl
  | cons c front ih => exact congrArg (c :: ·) ih

theorem contains_braces_of_ne {c : Char} (hc : c ≠ '}') (cs : List Char) :
    contains ['}', '}'] (c :: cs) = contains ['}', '}'] cs := by
  rw [contains, List.isPrefixOf, beq_eq_false_iff_ne.2 (Ne.symm hc)]
  rfl

/-- Closing braces stand behind a text that holds none. -/
theorem contains_braces_append {front : List Char} (h : '}' ∉ front) (rest : List Char) :
    contains ['}', '}'] (front ++ rest) = contains ['}', '}'] rest := by
  induction front with
  | nil => rfl
  | cons c front ih =>
    rw [List.cons_append, contains_braces_of_ne fun he => h (he ▸ List.mem_cons_self),
      ih fun hmem => h (List.mem_cons_of_mem _ hmem)]

/-- A text is taken up to the first place at which the end of it stands. -/
theorem takeThrough?_append {stop cs : List Char} (hne : stop ≠ [])
    (h : contains stop (cs ++ stop.dropLast) = false) (rest : List Char) :
    takeThrough? stop (cs ++ stop ++ rest) = some (cs ++ stop, rest) := by
  induction cs with
  | nil =>
    cases stop with
    | nil => exact absurd rfl hne
    | cons d stop =>
      have hstart := dropStart?_append (d :: stop) rest
      rw [List.cons_append] at hstart
      rw [List.nil_append, List.cons_append, takeThrough?, hstart]
  | cons c cs ih =>
    rw [List.cons_append, contains] at h
    obtain ⟨hfront, hback⟩ := Bool.or_eq_false_iff.1 h
    have hstart : dropStart? stop (c :: (cs ++ stop ++ rest)) = none := by
      refine Option.eq_none_iff_forall_ne_some.2 fun more hmore => ?_
      -- the end would stand at the front, and within what is known to be free of it
      have hwhole : stop <+: c :: (cs ++ stop ++ rest) := ⟨more, (dropStart?_eq_some hmore).symm⟩
      have hpart : c :: (cs ++ stop.dropLast) <+: c :: (cs ++ stop ++ rest) := by
        rw [List.cons_prefix_cons, List.append_assoc, List.prefix_append_right_inj]
        exact ⟨rfl, (List.dropLast_prefix stop).trans (List.prefix_append stop rest)⟩
      have hlength : stop.length ≤ (c :: (cs ++ stop.dropLast)).length := by
        simp only [List.length_cons, List.length_append, List.length_dropLast]
        omega
      have hprefix := List.prefix_of_prefix_length_le hwhole hpart hlength
      rw [← List.isPrefixOf_iff_prefix, hfront] at hprefix
      cases hprefix
    rw [List.cons_append, List.cons_append, takeThrough?, hstart]
    dsimp only
    rw [ih hback]
    rfl

/-- A tag in double braces. -/
def braced (inside : List Char) : List Char :=
  '{' :: '{' :: (inside ++ ['}', '}'])

/-- It ends at its own braces if no earlier ones stand one behind the other. -/
theorem readTag?_braced {inside : List Char} (h : contains ['}', '}'] (inside ++ ['}']) = false)
    (rest : List Char) : readTag? (braced inside ++ rest) = some (braced inside, rest) := by
  have htaken : takeThrough? ['}', '}'] (inside ++ ['}', '}'] ++ rest)
      = some (inside ++ ['}', '}'], rest) := takeThrough?_append (List.cons_ne_nil _ _) h rest
  show (takeThrough? ['}', '}'] (inside ++ ['}', '}'] ++ rest)).map _ = _
  rw [htaken]
  rfl

/-- A tag between blanks. -/
def spaced (inner : List Char) : List Char :=
  '{' :: '{' :: ' ' :: (inner ++ [' ', '}', '}'])

theorem spaced_eq_braced (inner : List Char) : spaced inner = braced (' ' :: (inner ++ [' '])) := by
  simp [spaced, braced]

theorem readTag?_spaced {inner : List Char} (h : contains ['}', '}'] inner = false)
    (rest : List Char) : readTag? (spaced inner ++ rest) = some (spaced inner, rest) := by
  rw [spaced_eq_braced]
  refine readTag?_braced ?_ rest
  rw [List.cons_append, contains_braces_of_ne (by decide), List.append_assoc]
  show contains ['}', '}'] (inner ++ ' ' :: ['}']) = false
  rw [contains_append_cons (by decide), h]
  rfl

/-- A blank at the end is no trim marker. -/
theorem trailingMarker_spaced (inner : List Char) :
    Action.trailingMarker (' ' :: (inner ++ [' '])) = (false, ' ' :: (inner ++ [' '])) := by
  have hreverse : (' ' :: (inner ++ [' '])).reverse = ' ' :: (inner.reverse ++ [' ']) := by simp
  rw [Action.trailingMarker, hreverse]
  show (false, (' ' :: (inner.reverse ++ [' '])).reverse) = _
  simp

/-- The blanks around a text are trimmed, up to its first and its last character. -/
theorem trim_spaced {cs : List Char} (hfirst : ∀ c ∈ cs.head?, isBlank c = false)
    (hlast : ∀ c ∈ cs.getLast?, isBlank c = false) : Text.trim (' ' :: (cs ++ [' '])) = cs :=
  have hspace : ∀ c ∈ [' '], isBlank c = true := List.forall_mem_singleton.2 rfl
  trim_append hspace hspace hfirst hlast

namespace Action.Scope

variable {s s' : Scope} {tokens : List Token} {inner text : List Char}

theorem tagTokens?_spaced (inner : List Char) :
    tagTokens? (spaced inner) = scan? (Text.trim (' ' :: (inner ++ [' ']))) := by
  rw [spaced_eq_braced]
  show (dropTail? ['}', '}'] (' ' :: (inner ++ [' ']) ++ ['}', '}'])).bind _ = _
  rw [dropTail?_append, Option.bind_some]
  show scan? (Text.trim (trailingMarker (' ' :: (inner ++ [' ']))).2) = _
  rw [trailingMarker_spaced]

/-- A tag between blanks has no trim markers, and becomes what its tokens make. -/
theorem tag?_spaced (htokens : tagTokens? (spaced inner) = some tokens)
    (hbody : s.body? tokens = some (.expression text, s')) :
    s.tag? (spaced inner) = some ((TagBody.expression text).text false false, s') := by
  rw [tagTokens?_spaced] at htokens
  rw [spaced_eq_braced]
  show (dropTail? ['}', '}'] (' ' :: (inner ++ [' ']) ++ ['}', '}'])).bind _ = _
  rw [dropTail?_append, Option.bind_some]
  have hleft : leadingMarker (' ' :: (inner ++ [' '])) = (false, ' ' :: (inner ++ [' '])) := rfl
  rw [hleft]
  dsimp only
  rw [trailingMarker_spaced]
  dsimp only
  split
  · next hcomment =>
    rw [scan?_of_comment hcomment] at htokens
    cases htokens
  · rw [htokens, Option.bind_some, hbody]
    rfl

end Action.Scope

/-! ### The parts of a template -/

/-- A template is read as some parts, up to its end, with this much fuel or more. -/
def ReadsAs (need : Nat) (cs : List Char) (nodes : List Node) : Prop :=
  ∀ fuel, need ≤ fuel → readNodes fuel .top cs = (nodes, [])

/-- A text without braces as a part, which is left out when it is empty. -/
def textParts : List Char → List Node
  | [] => []
  | cs => [.text cs]

/-- Text without opening braces is read up to the next tag. -/
theorem readText_append {front rest : List Char} (h : '{' ∉ front)
    (hrest : readText rest = ([], rest)) : readText (front ++ rest) = (front, rest) := by
  induction front with
  | nil => exact hrest
  | cons c front ih =>
    rw [List.cons_append, readText, ih fun hmem => h (List.mem_cons_of_mem _ hmem)]
    rintro _ _ he
    exact absurd (he ▸ List.mem_cons_self) h

/-- It is a part of the template if there is any. -/
theorem readNode_text {front rest : List Char} (h : '{' ∉ front) (hne : front ≠ [])
    (hrest : readText rest = ([], rest)) (fuel : Nat) :
    readNode (fuel + 1) .top (front ++ rest) = some (.text front, rest) := by
  have hread := readText_append h hrest
  cases front with
  | nil => exact absurd rfl hne
  | cons c front =>
    have hc : c ≠ '{' := fun he => h (he ▸ List.mem_cons_self)
    rw [List.cons_append] at hread ⊢
    rw [readNode, hread]
    · exact List.cons_ne_nil c _
    · exact fun _ he => hc (List.cons.inj he).1
    · exact fun _ he => hc (List.cons.inj he).1
    · exact fun _ he => hc (List.cons.inj he).1

namespace ReadsAs

variable {need : Nat} {front cs rest : List Char} {node : Node} {nodes : List Node}

theorem nil (need : Nat) : ReadsAs need [] [] := by
  intro fuel _
  match fuel with
  | 0 => rfl
  | 1 => rfl
  | fuel + 2 => rfl

theorem mono {more : Nat} (h : ReadsAs need cs nodes) (hle : need ≤ more) :
    ReadsAs more cs nodes :=
  fun fuel hfuel => h fuel (Nat.le_trans hle hfuel)

/-- A part that is read in front of others. -/
theorem cons (h : ReadsAs need rest nodes)
    (hnode : ∀ fuel, readNode (fuel + 1) .top cs = some (node, rest)) :
    ReadsAs (need + 2) cs (node :: nodes) := by
  intro fuel hfuel
  obtain ⟨fuel, rfl⟩ : ∃ more, fuel = more + 2 := ⟨fuel - 2, by omega⟩
  rw [readNodes, hnode]
  dsimp only
  rw [h (fuel + 1) (by omega)]

/-- A text in front of a tag, or at the end. -/
theorem text (h : ReadsAs need rest nodes) (hfront : '{' ∉ front)
    (hrest : readText rest = ([], rest)) :
    ReadsAs (need + 2) (front ++ rest) (textParts front ++ nodes) := by
  cases front with
  | nil => exact h.mono (by omega)
  | cons c front => exact h.cons (readNode_text hfront (List.cons_ne_nil c front) hrest)

/-- A shown value. -/
theorem display (h : ReadsAs need rest nodes)
    (hread : readDisplay ('{' :: '{' :: cs) = some (node, rest)) :
    ReadsAs (need + 2) ('{' :: '{' :: cs) (node :: nodes) :=
  h.cons fun _ => hread

end ReadsAs

/-! ### Slots -/

/-- A tag that shows a reference, with the value of the reference and the text behind the tag. -/
structure Slot where
  inner : List Char
  path : List Char
  value : Value
  behind : List Char

namespace Slot

/-- The slot as it is written. -/
def written (slot : Slot) : List Char :=
  spaced slot.inner ++ slot.behind

/-- The slot in the template language. -/
def translated (slot : Slot) : List Char :=
  (Action.TagBody.expression slot.path).text false false ++ slot.behind

/-- The parts of the slot in a template. -/
def parts (slot : Slot) : List Node :=
  .display {} (.ofTerm (.ref slot.path)) :: textParts slot.behind

/-- The slot with its value. -/
def filled (slot : Slot) : List Char :=
  slot.value.shown.toList ++ slot.behind

/-- A tag that becomes a reference outside all blocks, which leads to the value of the slot. -/
structure Shows (filters : List (List Char)) (vars : Namespace) (slot : Slot) : Prop where
  single : contains ['}', '}'] slot.inner = false
  becomes : ({ filters } : Action.Scope).tag? (spaced slot.inner)
    = some ((Action.TagBody.expression slot.path).text false false, { filters })
  reference : Action.IsReference slot.path
  kept : (Action.Form.ref slot.path).Kept = true
  found : Frames.lookup? (Fields.insert (String.ofList Action.root) (.obj vars) vars) [{}]
    slot.path = some slot.value
  plain : '{' ∉ slot.behind

end Slot

section Slots

variable {filters : List (List Char)} {vars : Namespace} {front : List Char} {slots : List Slot}

/-- The tags become references one by one. -/
theorem normalize_slots (hfront : '{' ∉ front) (hslots : ∀ slot ∈ slots, slot.Shows filters vars) :
    normalize filters (front ++ slots.flatMap Slot.written)
      = front ++ slots.flatMap Slot.translated := by
  unfold normalize
  induction slots generalizing front with
  | nil =>
    rw [pieces_append hfront, normalizePieces_chars, List.flatMap_nil, pieces]
    rfl
  | cons slot slots ih =>
    have hslot := hslots slot List.mem_cons_self
    rw [pieces_append hfront, normalizePieces_chars, List.flatMap_cons, List.flatMap_cons,
      Slot.written, List.append_assoc, pieces_tag (readTag?_spaced hslot.single), normalizePieces,
      hslot.becomes]
    dsimp only
    rw [ih hslot.plain fun other hmem => hslots other (List.mem_cons_of_mem _ hmem),
      Slot.translated, List.append_assoc]

/-- Slots start with a tag, so no text is read in front of them. -/
theorem readText_slots (slots : List Slot) :
    readText (slots.flatMap Slot.translated) = ([], slots.flatMap Slot.translated) := by
  cases slots <;> rfl

/-- The template is read slot by slot. -/
theorem readsAs_slots (hfront : '{' ∉ front) (hslots : ∀ slot ∈ slots, slot.Shows filters vars) :
    ReadsAs (4 * slots.length + 2) (front ++ slots.flatMap Slot.translated)
      (textParts front ++ slots.flatMap Slot.parts) := by
  induction slots generalizing front with
  | nil => exact (ReadsAs.nil 0).text hfront rfl
  | cons slot slots ih =>
    have hslot := hslots slot List.mem_cons_self
    have hbehind := ih hslot.plain fun other hmem => hslots other (List.mem_cons_of_mem _ hmem)
    have hdisplay := hbehind.display
      (Action.readDisplay_of_reference hslot.reference hslot.kept false false
        (slot.behind ++ slots.flatMap Slot.translated))
    have htag : ReadsAs (4 * slots.length + 4) ((slot :: slots).flatMap Slot.translated)
        ((slot :: slots).flatMap Slot.parts) := by
      rw [List.flatMap_cons, List.flatMap_cons, Slot.translated, List.append_assoc]
      exact hdisplay
    refine (htag.text hfront (readText_slots (slot :: slots))).mono ?_
    rw [List.length_cons]
    omega

theorem length_le_slots (slots : List Slot) :
    slots.length ≤ (slots.flatMap Slot.translated).length := by
  induction slots with
  | nil => exact Nat.zero_le _
  | cons slot slots ih =>
    have hslot : 0 < slot.translated.length := Nat.succ_pos _
    rw [List.flatMap_cons, List.length_append, List.length_cons]
    omega

/-- Slots hold no blocks and no macros, and no markers that trim. -/
theorem trimFrom_slots (pending : List Char) (slots : List Slot) :
    blockNames (textParts pending ++ slots.flatMap Slot.parts) = [] ∧
    macroNames (textParts pending ++ slots.flatMap Slot.parts) = [] ∧
    trimFrom false none (textParts pending ++ slots.flatMap Slot.parts)
      = textParts pending ++ slots.flatMap Slot.parts := by
  induction slots generalizing pending with
  | nil => cases pending <;> exact ⟨rfl, rfl, rfl⟩
  | cons slot slots ih =>
    obtain ⟨hblocks, hmacros, htrim⟩ := ih slot.behind
    rw [List.flatMap_cons, Slot.parts, List.cons_append]
    cases pending with
    | nil =>
      refine ⟨hblocks, hmacros, ?_⟩
      exact congrArg (Node.display {} (.ofTerm (.ref slot.path)) :: ·) htrim
    | cons c cs =>
      refine ⟨hblocks, hmacros, ?_⟩
      exact congrArg (Node.text (c :: cs) :: Node.display {} (.ofTerm (.ref slot.path)) :: ·) htrim

/-- Text is rendered as it is. -/
theorem renderNodes_textParts {c : Context} {stack : List Frame} {out : List Char}
    {nodes : List Node} (h : renderNodes c nodes stack = some (out, stack, .next))
    (cs : List Char) :
    renderNodes c (textParts cs ++ nodes) stack = some (cs ++ out, stack, .next) := by
  cases cs with
  | nil => exact h
  | cons d cs =>
    show (renderNodes c nodes stack).map _ = _
    rw [h]
    rfl

/-- The parts are rendered as the text with its values. -/
theorem renderNodes_slots {c : Context}
    (hvars : c.vars = Fields.insert (String.ofList Action.root) (.obj vars) vars)
    (front : List Char) (hslots : ∀ slot ∈ slots, slot.Shows filters vars) :
    renderNodes c (textParts front ++ slots.flatMap Slot.parts) [{}]
      = some (front ++ slots.flatMap Slot.filled, [{}], .next) := by
  induction slots generalizing front with
  | nil => exact renderNodes_textParts rfl front
  | cons slot slots ih =>
    have hslot := hslots slot List.mem_cons_self
    have hfound : Frames.lookup? c.vars [{}] slot.path = some slot.value := hvars ▸ hslot.found
    have hbehind := ih slot.behind fun other hmem => hslots other (List.mem_cons_of_mem _ hmem)
    refine renderNodes_textParts ?_ front
    rw [List.flatMap_cons, List.flatMap_cons, Slot.parts, List.cons_append, renderNodes,
      Action.renderNode_of_lookup hfound, Option.bind_some]
    dsimp only
    rw [if_pos rfl, hbehind, Slot.filled, List.append_assoc]
    rfl

/-- **A text with slots is filled in with the values of its slots.** -/
theorem interpolate_of_slots (functions : ValueFunctions) (hfront : '{' ∉ front)
    (hslots : ∀ slot ∈ slots, slot.Shows (callable functions) vars) :
    interpolate functions vars (String.ofList (front ++ slots.flatMap Slot.written))
      = String.ofList (front ++ slots.flatMap Slot.filled) := by
  have hrender : render? functions vars (front ++ slots.flatMap Slot.written)
      = some (front ++ slots.flatMap Slot.filled) := by
    obtain ⟨hblocks, hmacros, htrim⟩ := trimFrom_slots front slots
    have hlength := length_le_slots slots
    have hread := readsAs_slots hfront hslots
      (4 * (front ++ slots.flatMap Slot.translated).length + 4) (by rw [List.length_append]; omega)
    rw [render?_eq, normalize_slots hfront hslots, renderPlain?, ofChars?, hread]
    dsimp only
    rw [hblocks, hmacros, trimNodes, htrim]
    show (renderNodes _ _ [{}]).map Prod.fst = _
    rw [renderNodes_slots rfl front hslots]
    rfl
  rw [interpolate, String.toList_ofList, hrender]
  split
  · rfl
  · next hlooks =>
    -- without a start of a tag there is no slot
    cases slots with
    | nil => rfl
    | cons slot slots =>
      have hopens : contains ['{', '{'] (front ++ (slot :: slots).flatMap Slot.written) = true :=
        contains_append_of_right rfl front
      exact absurd (by rw [looksLikeTemplate, hopens]; rfl) hlooks

/-- So it is for a text of other items, each of which is a slot. -/
theorem interpolate_of_items {α : Type} (functions : ValueFunctions) {slot : α → Slot}
    {items : List α} (hfront : '{' ∉ front)
    (hitems : ∀ x ∈ items, (slot x).Shows (callable functions) vars) :
    interpolate functions vars
        (String.ofList (front ++ items.flatMap fun x => (slot x).written))
      = String.ofList (front ++ items.flatMap fun x => (slot x).filled) := by
  have hslots : ∀ y ∈ items.map slot, y.Shows (callable functions) vars := by
    intro y hy
    obtain ⟨x, hx, rfl⟩ := List.mem_map.1 hy
    exact hitems x hx
  have htext := interpolate_of_slots functions hfront hslots
  rwa [List.flatMap_map, List.flatMap_map] at htext

end Slots

/-! ### Names -/

/-- A name behind a dot is one word. -/
theorem Action.scan?_name {name : List Char} (h : isIdentifier name = true) :
    scan? ('.' :: name) = some [.word ('.' :: name)] := by
  have hword : ∀ c ∈ name, isWordChar c = true := by
    intro c hc
    rw [isWordChar, List.all_eq_true.1 (all_of_isIdentifier h) c hc]
    rfl
  cases name with
  | nil => cases h
  | cons c name =>
    have htake : (c :: name ++ []).takeWhile isWordChar = c :: name ++ [] :=
      List.takeWhile_append_of_pos hword
    have hdrop : (c :: name ++ []).dropWhile isWordChar = [] :=
      List.dropWhile_append_of_pos hword
    rw [List.append_nil] at htake hdrop
    show (scanFrom? (c :: name).length ((c :: name).dropWhile isWordChar)).map
      (.word ('.' :: (c :: name).takeWhile isWordChar) :: ·) = _
    rw [htake, hdrop]
    rfl

namespace Action.Scope

variable {name : List Char}

/-- The tag of a name behind a dot is one word. -/
theorem tagTokens?_name (h : isIdentifier name = true) :
    tagTokens? (spaced ('.' :: name)) = some [.word ('.' :: name)] := by
  have hblank : ∀ c ∈ '.' :: name, isBlank c = false := by
    intro c hc
    rcases List.mem_cons.1 hc with rfl | hc
    · decide
    · exact isBlank_of_isIdentChar (List.all_eq_true.1 (all_of_isIdentifier h) c hc)
  rw [tagTokens?_spaced, trim_spaced (fun c hc => hblank c (List.mem_of_mem_head? hc))
    (fun c hc => hblank c (List.mem_of_mem_getLast? hc)), scan?_name h]

/-- Outside all loops it is the name. -/
theorem body?_name (h : isIdentifier name = true) {s : Scope} (hdot : s.dot? = none) :
    s.body? [.word ('.' :: name)] = some (.expression name, s) := by
  show (s.pipeline? [.word ('.' :: name)]).map (fun text => (TagBody.expression text, s)) = _
  rw [pipeline?_word (isFunctionName_of_dot name), word?_dot (isPath_of_isIdentifier h), hdot]
  rfl

end Action.Scope

/-- A name that is read as a variable: an identifier that starts with no truth value, that is not
the negation, and that stands neither for the whole namespace nor for a dump of all variables, which
is not modelled here. -/
structure PlainName (name : List Char) : Prop where
  identifier : isIdentifier name = true
  bare : readBool name = none
  ne_not : name ≠ "not".toList
  ne_root : name ≠ Action.root
  ne_dump : name ≠ "__tera_context".toList

theorem PlainName.kept {name : List Char} (h : PlainName name) :
    (Action.Form.ref name).Kept = true :=
  Bool.and_eq_true_iff.2 ⟨Option.isNone_iff_eq_none.2 h.bare, bne_iff_ne.2 h.ne_not⟩

/-- A name, the string under it, and the text behind its tag. -/
structure Insertion where
  name : List Char
  value : String
  behind : List Char

/-- There are no braces in a reference to a name. -/
theorem not_contains_brace {name : List Char} (h : isIdentifier name = true) :
    contains ['}', '}'] ('.' :: name) = false := by
  have hbrace : '}' ∉ '.' :: name := by
    intro hmem
    rcases List.mem_cons.1 hmem with hdot | hmem
    · cases hdot
    · exact not_mem_of_all (Action.all_of_isIdentifier h) rfl hmem
  have happend := contains_braces_append hbrace []
  rwa [List.append_nil] at happend

namespace Insertion

/-- The insertion as it is written: a reference to the name. -/
def written (p : Insertion) : List Char :=
  spaced ('.' :: p.name) ++ p.behind

/-- The insertion with its string. -/
def filled (p : Insertion) : List Char :=
  p.value.toList ++ p.behind

/-- A name that is read as a variable and that the namespace holds a string under, in front of a
text without opening braces. -/
structure Bound (vars : Namespace) (p : Insertion) : Prop where
  name : PlainName p.name
  value : Fields.get? (String.ofList p.name) vars = some (.str p.value)
  plain : '{' ∉ p.behind

/-- The slot of an insertion. -/
def slot (p : Insertion) : Slot where
  inner := '.' :: p.name
  path := p.name
  value := .str p.value
  behind := p.behind

theorem Bound.shows {vars : Namespace} {p : Insertion} (h : p.Bound vars)
    (filters : List (List Char)) : p.slot.Shows filters vars where
  single := not_contains_brace h.name.identifier
  becomes := Action.Scope.tag?_spaced (Action.Scope.tagTokens?_name h.name.identifier)
    (Action.Scope.body?_name h.name.identifier rfl)
  reference := .of_isPath (Action.isPath_of_isIdentifier h.name.identifier)
  kept := h.name.kept
  found := by
    show Frames.lookup? _ [{}] p.name = some (.str p.value)
    rw [Action.lookup?_of_isPath (Action.isPath_of_isIdentifier h.name.identifier),
      Action.find?_of_free (Action.not_mem_loopStates h.name.identifier) _ _
        (fun f hf => List.mem_singleton.1 hf ▸ Frame.free_default _),
      findDeclared?, Action.splitDot_of_isIdentifier h.name.identifier]
    exact (Fields.get?_insert_of_ne _ _ fun he =>
      h.name.ne_root (String.ofList_injective he)).trans h.value
  plain := h.plain

end Insertion

/-- **Values are inserted verbatim.**  A text of references to names, with text that holds no braces
between them, is that text with the strings of the names, whatever the strings hold. -/
theorem interpolate_inserts_values (functions : ValueFunctions) {vars : Namespace}
    {front : List Char} {insertions : List Insertion} (hfront : '{' ∉ front)
    (hbound : ∀ p ∈ insertions, p.Bound vars) :
    interpolate functions vars (String.ofList (front ++ insertions.flatMap Insertion.written))
      = String.ofList (front ++ insertions.flatMap Insertion.filled) := by
  have hshows : ∀ p ∈ insertions, p.slot.Shows (callable functions) vars :=
    fun p hp => (hbound p hp).shows _
  have htext := interpolate_of_items functions hfront hshows
  exact htext

/-- A user whose name looks like a reference, and a note that looks like the start of a
condition. -/
def letterNamespace : Namespace :=
  [("note", .str "\x7b% if on %\x7d \"it's\" \x7b# "), ("user", .str "\x7b\x7b .note \x7d\x7d")]

/-- A letter to this user with the note. -/
def letter : List Insertion :=
  [{ name := "user".toList, value := "\x7b\x7b .note \x7d\x7d", behind := ", see ".toList },
    { name := "note".toList, value := "\x7b% if on %\x7d \"it's\" \x7b# ", behind := [] }]

/-- Both stand in the letter as they are. -/
theorem interpolate_inserts_values_of_letter :
    '{' ∉ "Hi ".toList ∧ (∀ p ∈ letter, p.Bound letterNamespace) ∧
    String.ofList ("Hi ".toList ++ letter.flatMap Insertion.written)
      = "Hi \x7b\x7b .user \x7d\x7d, see \x7b\x7b .note \x7d\x7d" ∧
    interpolate [] letterNamespace "Hi \x7b\x7b .user \x7d\x7d, see \x7b\x7b .note \x7d\x7d"
      = "Hi \x7b\x7b .note \x7d\x7d, see \x7b% if on %\x7d \"it's\" \x7b# " := by
  have hplain : '{' ∉ "Hi ".toList := by decide
  have hbound : ∀ p ∈ letter, p.Bound letterNamespace := by
    intro p hp
    rcases List.mem_cons.1 hp with rfl | hp
    · exact ⟨⟨by decide, rfl, by decide, by decide, by decide⟩, by cbv, by decide⟩
    · rw [List.mem_singleton.1 hp]
      exact ⟨⟨by decide, rfl, by decide, by decide, by decide⟩, by cbv, by decide⟩
  have hwritten : String.ofList ("Hi ".toList ++ letter.flatMap Insertion.written)
      = "Hi \x7b\x7b .user \x7d\x7d, see \x7b\x7b .note \x7d\x7d" := by decide +kernel
  refine ⟨hplain, hbound, hwritten, ?_⟩
  have hfilled := interpolate_inserts_values [] hplain hbound
  rw [hwritten] at hfilled
  exact hfilled.trans (by decide +kernel)

end Runbook.Template
