import Runbook.Text.Blank
/-!
# Replacing a part of a text

The occurrences of a part are replaced from left to right.

* `replaceAll_nil`, `replaceAll_of_none`, `replaceAll_of_some` — one step of the way through a text;
* `replaceAll_append_of_not_mem`, `replaceAll_pair_append` — a stretch of text without the first
  character of the part, or without the last one of two, stays as it is;
* `replaceAll_of_not_mem`, `replaceAll_of_not_contains` — and so does a text without the part;
* `replaceAll_char` — a single character is replaced wherever it stands;
* `replaceAll_pair_open`, `replaceAll_pair_close` — a pair at the front of such a stretch, or at its
  end, is replaced if it is the right one;
* `replaceAll_flatMap` — a text of stretches is replaced stretch by stretch.

The number of steps is bounded by the length of the text, which is enough: a part has a character.
-/

namespace Runbook.Text

variable {a b c d : Char} {old new front cs rest : List Char}

/-! ### Steps -/

theorem length_lt_of_dropStart? (h : dropStart? (a :: old) cs = some rest) :
    rest.length < cs.length := by
  rw [dropStart?_eq_some h, List.cons_append, List.length_cons, List.length_append]
  omega

theorem replaceAll_go_of_some (h : dropStart? (a :: old) cs = some rest) (fuel : Nat) :
    replaceAll.go (a :: old) new (fuel + 1) cs
      = new ++ replaceAll.go (a :: old) new fuel rest := by
  conv => lhs; unfold replaceAll.go
  rw [h]

theorem replaceAll_go_of_none (h : dropStart? (a :: old) (c :: cs) = none) (fuel : Nat) :
    replaceAll.go (a :: old) new (fuel + 1) (c :: cs)
      = c :: replaceAll.go (a :: old) new fuel cs := by
  conv => lhs; unfold replaceAll.go
  rw [h]

/-- More steps than there are characters make no difference. -/
theorem replaceAll_go_eq {fuel : Nat} (h : cs.length < fuel) :
    replaceAll.go (a :: old) new fuel cs = replaceAll (a :: old) new cs := by
  have hgo : ∀ (n m : Nat) (cs : List Char), cs.length < n → cs.length < m →
      replaceAll.go (a :: old) new n cs = replaceAll.go (a :: old) new m cs := by
    intro n
    induction n with
    | zero => exact fun m cs hn => absurd hn (Nat.not_lt_zero _)
    | succ n ih =>
      intro m cs hn hm
      obtain ⟨m, rfl⟩ := Nat.exists_eq_succ_of_ne_zero (Nat.ne_zero_of_lt hm)
      cases hstart : dropStart? (a :: old) cs with
      | some rest =>
        have hlength := length_lt_of_dropStart? hstart
        rw [replaceAll_go_of_some hstart, replaceAll_go_of_some hstart,
          ih m rest (by omega) (by omega)]
      | none =>
        cases cs with
        | nil => rfl
        | cons c cs =>
          rw [replaceAll_go_of_none hstart, replaceAll_go_of_none hstart,
            ih m cs (Nat.lt_of_succ_lt_succ hn) (Nat.lt_of_succ_lt_succ hm)]
  exact hgo _ _ cs h (Nat.lt_succ_self _)

@[simp] theorem replaceAll_nil : replaceAll (a :: old) new [] = [] := rfl

theorem replaceAll_of_none (h : dropStart? (a :: old) (c :: cs) = none) :
    replaceAll (a :: old) new (c :: cs) = c :: replaceAll (a :: old) new cs := by
  show replaceAll.go (a :: old) new ((c :: cs).length + 1) (c :: cs) = _
  rw [replaceAll_go_of_none h]
  exact congrArg (c :: ·) (replaceAll_go_eq (Nat.lt_succ_self _))

theorem replaceAll_of_some (h : dropStart? (a :: old) cs = some rest) :
    replaceAll (a :: old) new cs = new ++ replaceAll (a :: old) new rest := by
  show replaceAll.go (a :: old) new (cs.length + 1) cs = _
  rw [replaceAll_go_of_some h, replaceAll_go_eq (length_lt_of_dropStart? h)]

theorem replaceAll_of_ne (h : a ≠ c) :
    replaceAll (a :: old) new (c :: cs) = c :: replaceAll (a :: old) new cs :=
  replaceAll_of_none (if_neg h)

/-! ### Stretches that stay -/

/-- Up to the first character of the part, a text stays as it is. -/
theorem replaceAll_append_of_not_mem (h : a ∉ front) (rest : List Char) :
    replaceAll (a :: old) new (front ++ rest) = front ++ replaceAll (a :: old) new rest := by
  induction front with
  | nil => rfl
  | cons c front ih =>
    have hc : a ≠ c := fun he => h (he ▸ List.mem_cons_self)
    rw [List.cons_append, replaceAll_of_ne hc, ih fun hmem => h (List.mem_cons_of_mem _ hmem)]
    rfl

/-- Where its first character is missing, a part does not occur. -/
theorem replaceAll_of_not_mem (h : a ∉ cs) : replaceAll (a :: old) new cs = cs := by
  have happend : replaceAll (a :: old) new (cs ++ []) = cs ++ replaceAll (a :: old) new [] :=
    replaceAll_append_of_not_mem h []
  rwa [replaceAll_nil, List.append_nil] at happend

/-- Of two characters the last one is at the end of a pair, so up to that one a text stays as it
is. -/
theorem replaceAll_pair_append (h : b ∉ front) (hrest : rest.head? ≠ some b) :
    replaceAll [a, b] new (front ++ rest) = front ++ replaceAll [a, b] new rest := by
  induction front with
  | nil => rfl
  | cons c front ih =>
    have hfront : b ∉ front := fun hmem => h (List.mem_cons_of_mem _ hmem)
    have hnext : dropStart? [b] (front ++ rest) = none := by
      cases hcs : front ++ rest with
      | nil => rfl
      | cons d more =>
        refine if_neg ?_
        rintro rfl
        cases front with
        | nil => exact hrest (congrArg List.head? hcs)
        | cons e front => exact hfront ((List.cons.inj hcs).1 ▸ List.mem_cons_self)
    have hnone : dropStart? [a, b] (c :: (front ++ rest)) = none := by
      rw [dropStart?, hnext]
      exact ite_self _
    rw [List.cons_append, replaceAll_of_none hnone, ih hfront]
    rfl

theorem dropStart?_eq_none_of_isPrefixOf (h : front.isPrefixOf cs = false) :
    dropStart? front cs = none := by
  induction front generalizing cs with
  | nil => cases h
  | cons p front ih =>
    cases cs with
    | nil => rfl
    | cons c cs =>
      rw [dropStart?]
      split
      · next he =>
        rw [he, List.isPrefixOf, beq_self_eq_true, Bool.true_and] at h
        exact ih h
      · rfl

/-- A text without the part stays as it is. -/
theorem replaceAll_of_not_contains (h : contains (a :: old) cs = false) :
    replaceAll (a :: old) new cs = cs := by
  induction cs with
  | nil => rfl
  | cons c cs ih =>
    obtain ⟨hfront, hback⟩ := Bool.or_eq_false_iff.1 h
    rw [replaceAll_of_none (dropStart?_eq_none_of_isPrefixOf hfront), ih hback]

/-- A single character is replaced wherever it stands. -/
theorem replaceAll_char (new cs : List Char) :
    replaceAll [a] new cs = cs.flatMap fun c => if c = a then new else [c] := by
  induction cs with
  | nil => rfl
  | cons c cs ih =>
    rw [List.flatMap_cons, ← ih]
    split
    · next he => exact replaceAll_of_some (if_pos he.symm)
    · next he => exact replaceAll_of_ne (Ne.symm he)

theorem replaceAll_char_append (new front rest : List Char) :
    replaceAll [a] new (front ++ rest) = replaceAll [a] new front ++ replaceAll [a] new rest := by
  rw [replaceAll_char, replaceAll_char, replaceAll_char, List.flatMap_append]

/-! ### Stretch by stretch -/

/-- A pair in front of a text without its first character. -/
theorem replaceAll_pair_open (hd : a ≠ d) (h : a ∉ front) (new rest : List Char) :
    replaceAll [a, b] new (a :: d :: (front ++ rest))
      = (if d = b then new else [a, d]) ++ (front ++ replaceAll [a, b] new rest) := by
  rw [← replaceAll_append_of_not_mem h]
  split
  · next he => exact replaceAll_of_some ((if_pos rfl).trans (if_pos he.symm))
  · next he =>
    have hnone : dropStart? [a, b] (a :: d :: (front ++ rest)) = none :=
      (if_pos rfl).trans (if_neg (Ne.symm he))
    rw [replaceAll_of_none hnone, replaceAll_of_ne hd]
    rfl

/-- A pair behind a text without its last character. -/
theorem replaceAll_pair_close (hd : d ≠ b) (hab : a ≠ b) (h : b ∉ front) (new rest : List Char) :
    replaceAll [a, b] new (front ++ d :: b :: rest)
      = front ++ ((if d = a then new else [d, b]) ++ replaceAll [a, b] new rest) := by
  have hhead : (d :: b :: rest).head? ≠ some b := fun he => hd (Option.some.inj he)
  rw [replaceAll_pair_append h hhead]
  refine congrArg (front ++ ·) ?_
  split
  · next he => exact replaceAll_of_some ((if_pos he.symm).trans (if_pos rfl))
  · next he =>
    rw [replaceAll_of_ne (Ne.symm he), replaceAll_of_ne hab]
    rfl

/-- What each stretch becomes may depend on the next one not starting with one character. -/
theorem replaceAll_flatMap {α : Type} {f g : α → List Char} {xs : List α} (stop : Char)
    (hstart : ∀ x ∈ xs, ∃ c more, f x = c :: more ∧ c ≠ stop)
    (hstep : ∀ x ∈ xs, ∀ rest, rest.head? ≠ some stop →
      replaceAll (a :: old) new (f x ++ rest) = g x ++ replaceAll (a :: old) new rest) :
    replaceAll (a :: old) new (xs.flatMap f) = xs.flatMap g := by
  induction xs with
  | nil => rfl
  | cons x xs ih =>
    have hnext : (xs.flatMap f).head? ≠ some stop := by
      cases xs with
      | nil => nofun
      | cons y ys =>
        obtain ⟨c, more, hy, hc⟩ := hstart y (List.mem_cons_of_mem _ List.mem_cons_self)
        rw [List.flatMap_cons, hy]
        exact fun he => hc (Option.some.inj he)
    rw [List.flatMap_cons, hstep x List.mem_cons_self _ hnext,
      ih (fun y hy => hstart y (List.mem_cons_of_mem _ hy))
        fun y hy => hstep y (List.mem_cons_of_mem _ hy)]
    rfl

end Runbook.Text
