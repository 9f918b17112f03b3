import Mathlib.Data.List.Basic
import Runbook.Text.Blank
/-!
# Texts cut into pieces

What a text is cut into, and what such pieces make up again.

* `splitBy_eq_splitOnP`, `joinWith_eq_intercalate` — cutting and joining are those of lists;
* `joinWith_splitBy`, `splitBy_joinWith` — each undoes the other, as long as no piece holds the
  separator;
* `splitAtFirst?_append_cons`, `splitAtFirst?_eq_none`, `eq_of_splitAtFirst?`,
  `front_of_splitAtFirst?` — a text cut at one place;
* `contains_eq_true_iff`, `contains_append_cons` — the parts of a text;
* `dropStart?_append`, `dropTail?_append` — a part at either end;
* `takeWhile_append_of_head?`, `dropWhile_append_of_head?` — a run that ends where a text ends;
* `exists_trim`, `trim_append` — a text and the blanks around it.
-/

namespace Runbook.Text

/-! ### At every cut -/

theorem splitBy_eq_splitOnP (p : Char → Bool) (cs : List Char) :
    splitBy p cs = cs.splitOnP p := by
  induction cs with
  | nil => rfl
  | cons c cs ih =>
    rw [splitBy, List.splitOnP_cons_eq_if_modifyHead, ih]
    cases hsplit : cs.splitOnP p with
    | nil => exact absurd hsplit (List.splitOnP_ne_nil p cs)
    | cons piece pieces => rfl

theorem joinWith_eq_intercalate (sep : List Char) (pieces : List (List Char)) :
    joinWith sep pieces = sep.intercalate pieces := by
  induction pieces with
  | nil => rfl
  | cons piece pieces ih =>
    cases pieces with
    | nil => exact List.intercalate_singleton.symm
    | cons next pieces => rw [joinWith, ih, List.intercalate_cons_cons]; simp

/-- The pieces of a text make up the text. -/
theorem joinWith_splitBy (cut : Char) (cs : List Char) :
    joinWith [cut] (splitBy (· == cut) cs) = cs := by
  rw [joinWith_eq_intercalate, splitBy_eq_splitOnP]
  exact List.intercalate_splitOn cut

/-- Pieces without the separator are those of the text that they make up. -/
theorem splitBy_joinWith {cut : Char} {pieces : List (List Char)} (hne : pieces ≠ [])
    (hfree : ∀ piece ∈ pieces, cut ∉ piece) :
    splitBy (· == cut) (joinWith [cut] pieces) = pieces := by
  rw [joinWith_eq_intercalate, splitBy_eq_splitOnP]
  exact List.splitOn_intercalate cut hfree hne

/-- What stands in joined pieces stands in one of them, or is the separator. -/
theorem mem_joinWith {cut c : Char} {pieces : List (List Char)}
    (h : c ∈ joinWith [cut] pieces) : c = cut ∨ ∃ piece ∈ pieces, c ∈ piece := by
  induction pieces with
  | nil => simp [joinWith] at h
  | cons piece pieces ih =>
    cases pieces with
    | nil => exact .inr ⟨piece, List.mem_cons_self, h⟩
    | cons next pieces =>
      simp only [joinWith, List.mem_append, List.mem_singleton] at h
      rcases h with (h | h) | h
      · exact .inr ⟨piece, List.mem_cons_self, h⟩
      · exact .inl h
      · rcases ih h with h | ⟨other, hmem, h⟩
        · exact .inl h
        · exact .inr ⟨other, List.mem_cons_of_mem _ hmem, h⟩

/-! ### At the first cut -/

theorem splitAtFirst?_append_cons {p : Char → Bool} {front : List Char} {cut : Char}
    (hfront : ∀ c ∈ front, p c = false) (hcut : p cut = true) (rest : List Char) :
    splitAtFirst? p (front ++ cut :: rest) = some (front, rest) := by
  induction front with
  | nil => simp [splitAtFirst?, hcut]
  | cons c front ih =>
    have hc : p c = false := hfront c List.mem_cons_self
    simp [splitAtFirst?, hc, ih fun d hd => hfront d (List.mem_cons_of_mem _ hd)]

theorem splitAtFirst?_eq_none {p : Char → Bool} {cs : List Char} (h : ∀ c ∈ cs, p c = false) :
    splitAtFirst? p cs = none := by
  induction cs with
  | nil => rfl
  | cons c cs ih =>
    have hc : p c = false := h c List.mem_cons_self
    simp [splitAtFirst?, hc, ih fun d hd => h d (List.mem_cons_of_mem _ hd)]

theorem eq_of_splitAtFirst? {p : Char → Bool} {cs front rest : List Char}
    (h : splitAtFirst? p cs = some (front, rest)) :
    ∃ cut, p cut = true ∧ cs = front ++ cut :: rest := by
  induction cs generalizing front with
  | nil => cases h
  | cons c cs ih =>
    rw [splitAtFirst?] at h
    split at h
    · next hc =>
      cases h
      exact ⟨c, hc, rfl⟩
    · obtain ⟨⟨more, behind⟩, hmore, he⟩ := Option.map_eq_some_iff.1 h
      cases he
      obtain ⟨cut, hcut, rfl⟩ := ih hmore
      exact ⟨cut, hcut, rfl⟩

/-- A text is cut at the first place. -/
theorem front_of_splitAtFirst? {p : Char → Bool} {cs front rest : List Char}
    (h : splitAtFirst? p cs = some (front, rest)) : ∀ c ∈ front, p c = false := by
  induction cs generalizing front with
  | nil => cases h
  | cons c cs ih =>
    rw [splitAtFirst?] at h
    split at h
    · cases h
      exact fun d hd => absurd hd List.not_mem_nil
    · next hc =>
      obtain ⟨⟨more, behind⟩, hmore, he⟩ := Option.map_eq_some_iff.1 h
      cases he
      intro d hd
      rcases List.mem_cons.1 hd with rfl | hin
      · exact Bool.eq_false_iff.2 hc
      · exact ih hmore d hin

/-! ### Parts -/

theorem contains_eq_true_iff {part cs : List Char} : contains part cs = true ↔ part <:+: cs := by
  induction cs with
  | nil => rw [contains, List.isEmpty_iff, List.infix_nil]
  | cons c cs ih =>
    rw [contains, Bool.or_eq_true, List.isPrefixOf_iff_prefix, ih, List.infix_cons_iff]

theorem contains_append_of_left {part xs : List Char} (h : contains part xs = true)
    (ys : List Char) : contains part (xs ++ ys) = true :=
  contains_eq_true_iff.2 (List.infix_append_of_infix_left (contains_eq_true_iff.1 h))

theorem contains_append_of_right {part ys : List Char} (h : contains part ys = true)
    (xs : List Char) : contains part (xs ++ ys) = true :=
  contains_eq_true_iff.2 (List.infix_append_of_infix_right (contains_eq_true_iff.1 h))

/-- A part without a character stands in front of that character or behind it. -/
theorem contains_append_cons {part : List Char} {c : Char} (hc : c ∉ part)
    (cs rest : List Char) :
    contains part (cs ++ c :: rest) = (contains part cs || contains part rest) := by
  rw [Bool.eq_iff_iff, Bool.or_eq_true, contains_eq_true_iff, contains_eq_true_iff,
    contains_eq_true_iff]
  constructor
  · intro hpart
    have hstart : ∀ back, back <+: c :: rest → back <:+ part → back = [] := by
      intro back hback hend
      cases back with
      | nil => rfl
      | cons d back =>
        obtain ⟨rfl, -⟩ := List.cons_prefix_cons.1 hback
        exact absurd (hend.subset List.mem_cons_self) hc
    rcases List.infix_append_iff.1 hpart with hfront | hback | ⟨front, back, rfl, hfront, hback⟩
    · exact .inl hfront
    · rcases List.infix_cons_iff.1 hback with hback | hback
      · rw [hstart part hback List.suffix_rfl]
        exact .inl List.nil_infix
      · exact .inr hback
    · rw [hstart back hback (List.suffix_append _ _), List.append_nil]
      exact .inl hfront.isInfix
  · rintro (hpart | hpart)
    · exact List.infix_append_of_infix_left hpart
    · exact List.infix_append_of_infix_right (List.infix_cons hpart)

theorem dropStart?_append (start cs : List Char) : dropStart? start (start ++ cs) = some cs := by
  induction start with
  | nil => rfl
  | cons c start ih =>
    rw [List.cons_append, dropStart?, if_pos rfl]
    exact ih

theorem dropTail?_append (cs tail : List Char) : dropTail? tail (cs ++ tail) = some cs := by
  rw [dropTail?, List.reverse_append, dropStart?_append, Option.map_some, List.reverse_reverse]

/-! ### Runs of characters -/

section Runs

variable {p : Char → Bool} {next : List Char}

theorem takeWhile_append_of_head? (hnext : ∀ c ∈ next.head?, p c = false)
    (cs : List Char) : (cs ++ next).takeWhile p = cs.takeWhile p := by
  induction cs with
  | nil =>
    cases next with
    | nil => rfl
    | cons c next => exact List.takeWhile_cons_of_neg (by simp [hnext c rfl])
  | cons c cs ih =>
    rw [List.cons_append, List.takeWhile_cons, List.takeWhile_cons, ih]

theorem dropWhile_append_of_head? (hnext : ∀ c ∈ next.head?, p c = false)
    (cs : List Char) : (cs ++ next).dropWhile p = cs.dropWhile p ++ next := by
  induction cs with
  | nil =>
    cases next with
    | nil => rfl
    | cons c next => exact List.dropWhile_cons_of_neg (by simp [hnext c rfl])
  | cons c cs ih =>
    rw [List.cons_append, List.dropWhile_cons, List.dropWhile_cons, ih]
    split <;> rfl

end Runs

/-! ### At the ends -/

theorem trimStart_append {before cs : List Char} (hbefore : ∀ c ∈ before, isBlank c = true)
    (hfirst : ∀ c ∈ cs.head?, isBlank c = false) : trimStart (before ++ cs) = cs := by
  rw [trimStart, List.dropWhile_append_of_pos hbefore]
  cases cs with
  | nil => rfl
  | cons c cs => simp [hfirst c rfl]

theorem trimEnd_append {cs after : List Char} (hafter : ∀ c ∈ after, isBlank c = true)
    (hlast : ∀ c ∈ cs.getLast?, isBlank c = false) : trimEnd (cs ++ after) = cs := by
  have hreverse := @trimStart_append after.reverse cs.reverse
    (fun c hc => hafter c (List.mem_reverse.1 hc)) (by rwa [List.head?_reverse])
  rw [trimStart] at hreverse
  rw [trimEnd, List.reverse_append, hreverse, List.reverse_reverse]

/-- What is no blank is not trimmed, and nothing behind it. -/
theorem trimStart_append_cons {c : Char} (hblank : isBlank c = false) (front rest : List Char) :
    trimStart (front ++ c :: rest) = trimStart front ++ c :: rest := by
  have hhead : ∀ d ∈ (c :: rest).head?, isBlank d = false := by
    intro d hd
    obtain rfl := Option.some.inj hd
    exact hblank
  exact dropWhile_append_of_head? hhead front

theorem trimEnd_append_cons {c : Char} (hblank : isBlank c = false) (front back : List Char) :
    trimEnd (front ++ c :: back) = front ++ c :: trimEnd back := by
  have hreverse : (front ++ c :: back).reverse = back.reverse ++ c :: front.reverse := by
    simp
  have htrim := trimStart_append_cons hblank back.reverse front.reverse
  rw [trimStart, trimStart] at htrim
  rw [trimEnd, hreverse, htrim, trimEnd]
  simp

/-- Blanks around a text are trimmed, up to its first and its last character. -/
theorem trim_append {before cs after : List Char} (hbefore : ∀ c ∈ before, isBlank c = true)
    (hafter : ∀ c ∈ after, isBlank c = true) (hfirst : ∀ c ∈ cs.head?, isBlank c = false)
    (hlast : ∀ c ∈ cs.getLast?, isBlank c = false) : trim (before ++ cs ++ after) = cs := by
  cases cs with
  | nil =>
    have hall : ∀ c ∈ before ++ after, isBlank c = true := by
      intro c hc
      exact (List.mem_append.1 hc).elim (hbefore c) (hafter c)
    have hnone := @trimStart_append _ [] hall nofun
    rw [List.append_nil] at hnone
    rw [List.append_nil, trim, hnone]
    rfl
  | cons c cs =>
    rw [List.append_assoc, trim, trimStart_append hbefore, trimEnd_append hafter hlast]
    exact hfirst

/-- A text is what is left of it between blanks. -/
theorem exists_trim (cs : List Char) :
    ∃ before after, cs = before ++ trim cs ++ after ∧ (∀ c ∈ before, isBlank c = true) ∧
      ∀ c ∈ after, isBlank c = true := by
  have hstart : cs = cs.takeWhile isBlank ++ trimStart cs := List.takeWhile_append_dropWhile.symm
  have hend : trimStart cs = trim cs ++ ((trimStart cs).reverse.takeWhile isBlank).reverse := by
    rw [trim, trimEnd, ← List.reverse_append, List.takeWhile_append_dropWhile,
      List.reverse_reverse]
  refine ⟨cs.takeWhile isBlank, ((trimStart cs).reverse.takeWhile isBlank).reverse, ?_, ?_, ?_⟩
  · rw [List.append_assoc, ← hend]
    exact hstart
  · exact List.all_eq_true.1 List.all_takeWhile
  · intro c hc
    exact List.all_eq_true.1 List.all_takeWhile c (List.mem_reverse.1 hc)

end Runbook.Text
