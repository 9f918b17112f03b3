import Runbook.Proofs.Template.References
/-!
# Keys between brackets

A subscript between quotes is looked up as a part of a dotted path, so the brackets are undone
before the path is taken apart.

* `Readable` — the keys that come through that: without brackets and without the two-character forms
  of the slash and the tilde, with quotes of one kind at most, each directly behind a backslash;
* `undoBrackets_bracketed` — brackets become dots and double quotes, and slashes their two-character
  form;
* `pathParts_quotedParts` — the path is taken apart into the keys;
* `lookup?_bracketed`, `findDeclared?_quotedParts` — so a name with such subscripts leads to what is held
  under the keys in the value of the name.

Brackets are undone in the whole path at once, by one replacement for each kind of bracket, so each
replacement is followed through all subscripts before the next one.
-/

namespace Runbook.Template

open Runbook.Text

/-! ### Keys -/

/-- Every quote stands directly behind a backslash, and the end does not. -/
def quotesGuarded : (escaped : Bool) → List Char → Bool
  | escaped, [] => !escaped
  | escaped, c :: cs =>
    if c = '"' ∨ c = '\'' then escaped && quotesGuarded false cs
    else quotesGuarded (c == '\\') cs

/-- A key that is found as it is when it is written between brackets. -/
structure Readable (key : List Char) : Prop where
  ne_nil : key ≠ []
  opening : '[' ∉ key
  closing : ']' ∉ key
  tilde : contains ['~', '0'] key = false
  slash : contains ['~', '1'] key = false
  quotes : '"' ∉ key ∨ '\'' ∉ key
  guarded : quotesGuarded false key = true

/-- The quotes around a key: double ones unless it holds one. -/
def quoteOf (key : List Char) : Char :=
  if '"' ∈ key then '\'' else '"'

theorem quoteOf_cases (key : List Char) : quoteOf key = '"' ∨ quoteOf key = '\'' := by
  unfold quoteOf
  split
  · exact .inr rfl
  · exact .inl rfl

theorem quoteOf_ne {c : Char} (hc : c ≠ '"' ∧ c ≠ '\'') (key : List Char) : quoteOf key ≠ c := by
  rcases quoteOf_cases key with hq | hq <;> rw [hq]
  · exact hc.1.symm
  · exact hc.2.symm

theorem Readable.quoteOf_not_mem {key : List Char} (h : Readable key) : quoteOf key ∉ key := by
  unfold quoteOf
  split
  · next hmem => exact h.quotes.resolve_left fun hnot => hnot hmem
  · next hnot => exact hnot

/-- A key as a subscript. -/
def bracketed (key : List Char) : List Char :=
  '[' :: quoteOf key :: (key ++ [quoteOf key, ']'])

/-- A key with its slashes in their two-character form. -/
def slashless (key : List Char) : List Char :=
  replaceAll ['/'] ['~', '1'] key

theorem slashless_cons (c : Char) (cs : List Char) :
    slashless (c :: cs) = (if c = '/' then ['~', '1'] else [c]) ++ slashless cs := by
  rw [slashless, slashless, replaceAll_char, replaceAll_char]
  rfl

theorem not_mem_slashless {c : Char} {key : List Char} (hc : c ∉ ['~', '1']) (h : c ∉ key) :
    c ∉ slashless key := by
  intro hmem
  rw [slashless, replaceAll_char] at hmem
  obtain ⟨d, hd, hmem⟩ := List.mem_flatMap.1 hmem
  split at hmem
  · exact hc hmem
  · exact h (List.mem_singleton.1 hmem ▸ hd)

/-- A key as a part of a dotted path. -/
def quotedPart (key : List Char) : List Char :=
  '.' :: '"' :: (slashless key ++ ['"'])

/-! ### Brackets are undone -/

/-- How a subscript starts when the brackets in front of some quotes are undone. -/
def opened (done : List Char) (q : Char) : List Char :=
  if q ∈ done then ['.', '"'] else ['[', q]

/-- How a subscript ends when the brackets behind some quotes are undone. -/
def closed (done : List Char) (q : Char) : List Char :=
  if q ∈ done then ['"'] else [q, ']']

/-- A key on its way from a subscript to a part of a path. -/
def undone (opening closing : List Char) (key : List Char) : List Char :=
  opened opening (quoteOf key) ++ (slashless key ++ closed closing (quoteOf key))

section Undo

variable {head : List Char} {keys : List (List Char)}

theorem exists_undone_eq_cons (opening closing key : List Char) :
    ∃ c more, undone opening closing key = c :: more ∧ c ≠ ']' := by
  unfold undone opened
  split
  · exact ⟨'.', _, rfl, by decide⟩
  · exact ⟨'[', _, rfl, by decide⟩

/-- Slashes are written as two characters. -/
theorem undo_slashes (hhead : head.all isIdentChar = true) :
    replaceAll ['/'] ['~', '1'] (head ++ keys.flatMap bracketed)
      = head ++ keys.flatMap (undone [] []) := by
  rw [replaceAll_append_of_not_mem (not_mem_of_all hhead rfl)]
  refine congrArg (head ++ ·) (replaceAll_flatMap ']' ?_ ?_)
  · exact fun key _ => ⟨'[', _, rfl, by decide⟩
  · intro key _ rest _
    have hquote : '/' ≠ quoteOf key := (quoteOf_ne (by decide) key).symm
    have htext : bracketed key ++ rest
        = ['[', quoteOf key] ++ (key ++ ([quoteOf key, ']'] ++ rest)) := by
      simp [bracketed]
    have hbrackets : '/' ∉ ['[', quoteOf key] ∧ '/' ∉ [quoteOf key, ']'] := by
      simp [hquote]
    rw [htext, replaceAll_append_of_not_mem hbrackets.1, replaceAll_char_append,
      replaceAll_append_of_not_mem hbrackets.2]
    simp [undone, opened, closed, slashless]

/-- The brackets in front of one kind of quotes become dots. -/
theorem undo_opening {done : List Char} {p : Char} (hhead : head.all isIdentChar = true)
    (hkeys : ∀ key ∈ keys, Readable key) :
    replaceAll ['[', p] ['.', '"'] (head ++ keys.flatMap (undone done []))
      = head ++ keys.flatMap (undone (p :: done) []) := by
  rw [replaceAll_append_of_not_mem (not_mem_of_all hhead rfl)]
  refine congrArg (head ++ ·) (replaceAll_flatMap ']' ?_ ?_)
  · exact fun key _ => exists_undone_eq_cons _ _ _
  · intro key hkey rest _
    have hquote : '[' ≠ quoteOf key := (quoteOf_ne (by decide) key).symm
    have hkeyText := not_mem_slashless (by decide) (hkeys key hkey).opening
    have hbody : '[' ∉ slashless key ++ [quoteOf key, ']'] := by
      simp [hkeyText, hquote]
    unfold undone
    by_cases hdone : quoteOf key ∈ done
    · have hall : '[' ∉ ['.', '"'] ++ (slashless key ++ [quoteOf key, ']']) := by
        simpa using hbody
      rw [opened, if_pos hdone, opened, if_pos (List.mem_cons_of_mem p hdone)]
      exact replaceAll_append_of_not_mem hall rest
    · have hpair := replaceAll_pair_open (b := p) hquote hbody ['.', '"'] rest
      rw [opened, if_neg hdone, opened, List.append_assoc]
      simp only [List.mem_cons, hdone, or_false]
      exact hpair.trans (List.append_assoc _ _ _).symm

/-- The brackets behind one kind of quotes go away. -/
theorem undo_closing {done all : List Char} {p : Char} (hhead : head.all isIdentChar = true)
    (hp : isIdentChar p = false) (hbracket : p ≠ ']') (hall : ∀ key ∈ keys, quoteOf key ∈ all)
    (hkeys : ∀ key ∈ keys, Readable key) :
    replaceAll [p, ']'] ['"'] (head ++ keys.flatMap (undone all done))
      = head ++ keys.flatMap (undone all (p :: done)) := by
  rw [replaceAll_append_of_not_mem (not_mem_of_all hhead hp)]
  refine congrArg (head ++ ·) (replaceAll_flatMap ']' ?_ ?_)
  · exact fun key _ => exists_undone_eq_cons _ _ _
  · intro key hkey rest hrest
    have hquote : quoteOf key ≠ ']' := quoteOf_ne (by decide) key
    have hkeyText := not_mem_slashless (by decide) (hkeys key hkey).closing
    have hfront : ']' ∉ ['.', '"'] ++ slashless key := by
      simpa using hkeyText
    unfold undone
    rw [opened, if_pos (hall key hkey), ← List.append_assoc, ← List.append_assoc]
    by_cases hdone : quoteOf key ∈ done
    · have hwhole : ']' ∉ ['.', '"'] ++ slashless key ++ ['"'] := by
        simpa using hkeyText
      rw [closed, if_pos hdone, closed, if_pos (List.mem_cons_of_mem p hdone)]
      exact replaceAll_pair_append hwhole hrest
    · have hpair := replaceAll_pair_close hquote hbracket hfront ['"'] rest
      rw [closed, if_neg hdone, closed, List.append_assoc]
      simp only [List.mem_cons, hdone, or_false]
      simpa using hpair

theorem not_mem_undone {c : Char} {opening closing : List Char} (hhead : c ∉ head)
    (hkeys : ∀ key ∈ keys, c ∉ undone opening closing key) :
    c ∉ head ++ keys.flatMap (undone opening closing) := by
  intro hmem
  rcases List.mem_append.1 hmem with hmem | hmem
  · exact hhead hmem
  · obtain ⟨key, hkey, hmem⟩ := List.mem_flatMap.1 hmem
    exact hkeys key hkey hmem

/-- **Subscripts are undone** to parts of a dotted path. -/
theorem undoBrackets_bracketed (hhead : head.all isIdentChar = true)
    (hkeys : ∀ key ∈ keys, Readable key) :
    undoBrackets (head ++ keys.flatMap bracketed) = head ++ keys.flatMap quotedPart := by
  have hquotes : ∀ key : List Char, quoteOf key ∈ ['"', '\''] := by
    intro key
    rcases quoteOf_cases key with hq | hq <;> rw [hq] <;> decide
  have hopened : '[' ∉ head ++ keys.flatMap (undone ['"', '\''] []) := by
    refine not_mem_undone (not_mem_of_all hhead rfl) fun key hkey => ?_
    have hkeyText := not_mem_slashless (by decide) (hkeys key hkey).opening
    rcases quoteOf_cases key with hq | hq <;> simp [undone, opened, closed, hq, hkeyText]
  have hclosed : ']' ∉ head ++ keys.flatMap (undone ['"', '\''] ['"', '\'']) := by
    refine not_mem_undone (not_mem_of_all hhead rfl) fun key hkey => ?_
    have hkeyText := not_mem_slashless (by decide) (hkeys key hkey).closing
    rcases quoteOf_cases key with hq | hq <;> simp [undone, opened, closed, hq, hkeyText]
  have hparts : undone ['"', '\''] ['"', '\''] = quotedPart := by
    funext key
    rw [undone, opened, closed, if_pos (hquotes key), if_pos (hquotes key)]
    rfl
  unfold undoBrackets
  dsimp only
  rw [undo_slashes hhead, undo_opening hhead hkeys, undo_opening hhead hkeys,
    replaceAll_of_not_mem hopened,
    undo_closing hhead rfl (by decide) (fun key _ => hquotes key) hkeys,
    undo_closing hhead rfl (by decide) (fun key _ => hquotes key) hkeys,
    replaceAll_of_not_mem hclosed, hparts]

end Undo

/-! ### The path is taken apart -/

/-- Quotes behind backslashes are characters of a part. -/
theorem splitPath_guarded {key : List Char} {escaped : Bool}
    (h : quotesGuarded escaped key = true) (part rest : List Char) :
    splitPath { double := true, escaped } part (key ++ '"' :: rest)
      = closePart (key.reverse ++ part) (splitPath {} [] rest) := by
  induction key generalizing escaped part with
  | nil =>
    obtain rfl : escaped = false := Bool.not_eq_true' _ ▸ h
    rfl
  | cons c cs ih =>
    have hparts : (c :: cs).reverse ++ part = cs.reverse ++ c :: part := by simp
    rw [hparts, List.cons_append, splitPath]
    rw [quotesGuarded] at h
    by_cases hquote : c = '"' ∨ c = '\''
    · rw [if_pos hquote, Bool.and_eq_true] at h
      obtain ⟨rfl, hrest⟩ := h
      rcases hquote with rfl | rfl
      · exact ih hrest _
      · exact ih hrest _
    · rw [if_neg hquote] at h
      obtain ⟨hdouble, hsingle⟩ := not_or.1 hquote
      rw [if_neg hdouble, if_neg hsingle]
      by_cases hslash : c = '\\'
      · subst hslash
        exact ih h _
      · rw [beq_eq_false_iff_ne.2 hslash] at h
        rw [if_neg hslash, if_neg (by simp)]
        exact ih h _

theorem quotesGuarded_slashless (escaped : Bool) (key : List Char) :
    quotesGuarded escaped (slashless key) = quotesGuarded escaped key := by
  induction key generalizing escaped with
  | nil => rfl
  | cons c cs ih =>
    rw [slashless_cons]
    split
    · next hslash =>
      subst hslash
      exact ih false
    · next hslash =>
      rw [List.singleton_append, quotesGuarded, quotesGuarded, ih, ih]

/-- The characters of a key are those of its part. -/
theorem plainPart_slashless {key : List Char} (htilde : contains ['~', '0'] key = false)
    (hslash : contains ['~', '1'] key = false) : plainPart (slashless key) = key := by
  have hslashes : replaceAll ['~', '1'] ['/'] (slashless key) = key := by
    induction key with
    | nil => rfl
    | cons c cs ih =>
      obtain ⟨hfront, hback⟩ := Bool.or_eq_false_iff.1 hslash
      have hrest := ih (Bool.or_eq_false_iff.1 htilde).2 hback
      rw [slashless_cons]
      split
      · next he =>
        rw [he]
        exact (replaceAll_of_some rfl).trans (congrArg ('/' :: ·) hrest)
      · next he =>
        have hnone : dropStart? ['~', '1'] (c :: slashless cs) = none := by
          cases cs with
          | nil => exact ite_self _
          | cons d cs =>
            rw [slashless_cons, dropStart?]
            split
            · next hc =>
              subst hc
              split
              · exact if_neg (by decide)
              · refine if_neg ?_
                rintro rfl
                cases hfront
            · rfl
        rw [List.singleton_append, replaceAll_of_none hnone, hrest]
  rw [plainPart, hslashes, replaceAll_of_not_contains htilde]

theorem splitPath_quotedParts {keys : List (List Char)} (hkeys : ∀ key ∈ keys, Readable key) :
    splitPath {} [] (keys.flatMap quotedPart) = keys.map slashless := by
  induction keys with
  | nil => rfl
  | cons key keys ih =>
    have hkey := hkeys key List.mem_cons_self
    have hguarded := splitPath_guarded
      ((quotesGuarded_slashless false key).trans hkey.guarded) [] (keys.flatMap quotedPart)
    have htext : (key :: keys).flatMap quotedPart
        = '.' :: '"' :: (slashless key ++ '"' :: keys.flatMap quotedPart) := by
      simp [quotedPart]
    have hsome : slashless key ≠ [] := by
      cases key with
      | nil => exact absurd rfl hkey.ne_nil
      | cons c cs =>
        rw [slashless_cons]
        split <;> exact List.cons_ne_nil _ _
    rw [htext]
    show splitPath { double := true } [] (slashless key ++ '"' :: keys.flatMap quotedPart) = _
    rw [hguarded, ih fun other hmem => hkeys other (List.mem_cons_of_mem _ hmem), List.append_nil]
    have hreverse : (slashless key).reverse ≠ [] := fun he => hsome (List.reverse_eq_nil_iff.1 he)
    cases hpart : (slashless key).reverse with
    | nil => exact absurd hpart hreverse
    | cons c part =>
      show (c :: part).reverse :: keys.map slashless = _
      rw [← hpart, List.reverse_reverse]
      rfl

/-- **The path is taken apart into the keys.** -/
theorem pathParts_quotedParts {keys : List (List Char)} {tail : List Char}
    (hkeys : ∀ key ∈ keys, Readable key) (htail : keys.flatMap quotedPart = '.' :: tail) :
    pathParts tail = keys := by
  have hsplit := splitPath_quotedParts hkeys
  rw [htail] at hsplit
  have hmap : ∀ key ∈ keys, (plainPart ∘ slashless) key = id key := fun key hkey =>
    plainPart_slashless (hkeys key hkey).tilde (hkeys key hkey).slash
  show (splitPath {} [] ('.' :: tail)).map plainPart = keys
  rw [hsplit, List.map_map, List.map_congr_left hmap, List.map_id]

/-! ### Keys are looked up -/

/-- Text without brackets has no subscripts. -/
theorem subscripts_append {front rest : List Char} (h : '[' ∉ front)
    (hrest : ∀ fuel, subscripts fuel rest = []) (fuel : Nat) :
    subscripts fuel (front ++ rest) = [] := by
  induction front generalizing fuel with
  | nil => exact hrest fuel
  | cons c front ih =>
    cases fuel with
    | zero => rfl
    | succ fuel =>
      have hc : c ≠ '[' := fun he => h (he ▸ List.mem_cons_self)
      rw [List.cons_append]
      unfold subscripts
      rw [if_neg hc]
      exact ih (fun hmem => h (List.mem_cons_of_mem _ hmem)) fuel

/-- A key between quotes is no reference. -/
theorem subscripts_bracketed {keys : List (List Char)} (hkeys : ∀ key ∈ keys, Readable key)
    (fuel : Nat) : subscripts fuel (keys.flatMap bracketed) = [] := by
  induction keys generalizing fuel with
  | nil => cases fuel <;> rfl
  | cons key keys ih =>
    have hinside : '[' ∉ key ++ [quoteOf key, ']'] := by
      have hquote : '[' ≠ quoteOf key := (quoteOf_ne (by decide) key).symm
      simp [(hkeys key List.mem_cons_self).opening, hquote]
    have hrest : ∀ fuel, subscripts fuel (keys.flatMap bracketed) = [] :=
      ih fun other hmem => hkeys other (List.mem_cons_of_mem _ hmem)
    cases fuel with
    | zero => rfl
    | succ fuel =>
      rw [List.flatMap_cons]
      show subscripts (fuel + 1) ('[' :: quoteOf key :: (key ++ [quoteOf key, ']']
        ++ keys.flatMap bracketed)) = []
      unfold subscripts
      rw [if_pos rfl]
      dsimp only
      rw [if_pos (quoteOf_cases key)]
      exact subscripts_append hinside hrest fuel

section Lookup

variable {head : List Char} {keys : List (List Char)}

/-- **A name with bracketed keys is looked up as a dotted path.** -/
theorem lookup?_bracketed (hhead : head.all isIdentChar = true)
    (hkeys : ∀ key ∈ keys, Readable key) (ns : Namespace) (fs : Frames) :
    fs.lookup? ns (head ++ keys.flatMap bracketed)
      = fs.find? ns (head ++ keys.flatMap quotedPart) := by
  have hbracket : '[' ∉ head := not_mem_of_all hhead rfl
  rw [Frames.lookup?, Frames.resolve?]
  split
  · rw [subscripts_append hbracket (subscripts_bracketed hkeys)]
    show (some (head ++ keys.flatMap bracketed)).bind _ = _
    rw [Option.bind_some, undoBrackets_bracketed hhead hkeys]
  · next hnone =>
    cases keys with
    | nil => rfl
    | cons key keys =>
      refine absurd ?_ hnone
      rw [List.contains_iff_mem]
      exact List.mem_append_right _ List.mem_cons_self

/-- The keys are followed in the value of the name. -/
theorem findDeclared?_quotedParts (hhead : isIdentifier head = true)
    (hkeys : ∀ key ∈ keys, Readable key) (vars : Namespace) :
    findDeclared? vars (head ++ keys.flatMap quotedPart)
      = (Fields.get? (String.ofList head) vars).bind (keys.foldlM stepInto?) := by
  cases keys with
  | nil =>
    rw [List.flatMap_nil, List.append_nil, findDeclared?, Action.splitDot_of_isIdentifier hhead]
    show _ = (Fields.get? (String.ofList head) vars).bind some
    rw [Option.bind_fun_some]
  | cons key keys =>
    obtain ⟨tail, htail⟩ : ∃ tail, (key :: keys).flatMap quotedPart = '.' :: tail := ⟨_, rfl⟩
    rw [htail, findDeclared?, Action.splitDot_append hhead]
    refine congrArg ((Fields.get? (String.ofList head) vars).bind ·) ?_
    funext v
    rw [followPath?, pathParts_quotedParts hkeys htail]

/-- A path with quotes is none into the state of a loop. -/
theorem not_mem_loopStates_quotedParts (hhead : isIdentifier head = true) :
    String.ofList (head ++ keys.flatMap quotedPart) ∉ loopStates := by
  cases keys with
  | nil =>
    rw [List.flatMap_nil, List.append_nil]
    exact Action.not_mem_loopStates hhead
  | cons key keys =>
    intro hmem
    have hquote : ∀ word ∈ loopStates, '"' ∉ word.toList := by decide
    have hname := hquote _ hmem
    rw [String.toList_ofList] at hname
    exact hname (List.mem_append_right _ (List.mem_cons_of_mem _ List.mem_cons_self))

end Lookup

end Runbook.Template
