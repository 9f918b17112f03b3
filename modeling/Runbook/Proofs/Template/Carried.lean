import Runbook.Proofs.Template.Strings
/-!
# Strings come through

A string that is written in an action is read back as it was from what the action becomes, wherever
in the action it stands.

* `Scope.BehindNamespace` — the place of a key of the whole namespace, the only one where a string
  can become a name;
* `Scope.exists_allStrings` — the other strings of an action do not depend on the one in a hole;
* `Scope.isSome_plug` — nor does it depend on that one whether the action is supported, if it has a
  literal;
* `Scope.tag?_string` — a tag around a written text is a pipeline with the text in a hole;
* `Scope.strings_come_through` — so the text is among the literals of what the tag becomes, and a
  tag is left alone for its string only if that holds all three quotes;
* `Scope.keys_are_names` — an identifier behind the whole namespace has no literal.
-/

namespace Runbook.Template.Action

open Runbook.Text

namespace Scope

/-! ### The string in a hole -/

/-- Whether what stands behind these operands is a key of the whole namespace. -/
def BehindRoot (σ : Scope) (front : Stage) : Prop :=
  ∃ base n, σ.word? base = some root ∧
    front = .word "index".toList :: .word base :: List.replicate n (.str root)

/-- Whether tokens end with a call of `index` on the whole namespace and with keys that lead to
itself, so that a string behind them is a key of the namespace. -/
def BehindNamespace (σ : Scope) (tokens : List Token) : Prop :=
  ∃ lead base n, (Opener lead ∨ BehindMark lead) ∧ σ.word? base = some root ∧
    tokens = lead ++ .word "index".toList :: .word base :: List.replicate n (.str root)

section Places

variable {σ : Scope} {s : List Char} {front back : Stage} {tokens : List Token} {x : Term}

theorem BehindRoot.of_endsWith (h : σ.BehindRoot front) (hends : EndsWith tokens front)
    {opener : List Token} (hopener : Opener opener) : σ.BehindNamespace (opener ++ tokens) := by
  obtain ⟨base, n, hbase, rfl⟩ := h
  have hkeys : ∀ n, (List.replicate n (Term.str root)).mapM Term.token?
      = some (List.replicate n (.str root)) := by
    intro n
    induction n with
    | zero => rfl
    | succ n ih =>
      rw [List.replicate_succ, List.mapM_cons, ih]
      rfl
  obtain ⟨lead, hlead, rfl⟩ := hends
    (.word "index".toList :: .word base :: List.replicate n (.str root)) (by
      rw [List.mapM_cons, List.mapM_cons, hkeys]
      rfl)
  refine ⟨opener ++ lead, base, n, ?_, hbase, (List.append_assoc _ _ _).symm⟩
  rcases hlead with rfl | ⟨more, mark, hmark, rfl⟩
  · rw [List.append_nil]
    exact .inl hopener
  · exact .inr ⟨opener ++ more, mark, hmark, (List.append_assoc _ _ _).symm⟩

/-- Keys that lead to the namespace itself are names. -/
theorem namedKeys_replicate (n : Nat) (rest : List Term) :
    namedKeys (List.replicate n (.str root) ++ rest) = n + namedKeys rest := by
  induction n with
  | zero => exact (Nat.zero_add _).symm
  | succ n ih =>
    rw [List.replicate_succ, List.cons_append, namedKeys, if_pos rfl, ih]
    omega

/-- What stands behind any other key is not looked at. -/
theorem exists_namedKeys {keys : List Term} (h : ∀ n, keys ≠ List.replicate n (.str root)) :
    ∃ m ≤ keys.length, ∀ rest, namedKeys (keys ++ rest) = m := by
  induction keys with
  | nil => exact absurd rfl (h 0)
  | cons key keys ih =>
    cases key with
    | str x =>
      by_cases hroot : x = root
      · have hrest : ∀ n, keys ≠ List.replicate n (.str root) := by
          rintro n rfl
          exact h (n + 1) (by rw [hroot, List.replicate_succ])
        obtain ⟨m, hm, hkeys⟩ := ih hrest
        refine ⟨m + 1, Nat.succ_le_succ hm, fun rest => ?_⟩
        rw [List.cons_append, namedKeys, if_pos hroot, hkeys]
      · refine ⟨if isIdentifier x then 1 else 0, ?_, fun rest => if_neg hroot⟩
        split
        · exact Nat.succ_le_succ (Nat.zero_le _)
        · exact Nat.zero_le _
    | num n => exact ⟨0, Nat.zero_le _, fun rest => rfl⟩
    | word w => exact ⟨0, Nat.zero_le _, fun rest => rfl⟩
    | group stages => exact ⟨0, Nat.zero_le _, fun rest => rfl⟩

theorem named_of_behindRoot (h : σ.BehindRoot front) (rest : List Term) :
    σ.named (front ++ rest) = front.length + namedKeys rest := by
  obtain ⟨base, n, hbase, rfl⟩ := h
  have hnamed : σ.named (.word "index".toList :: .word base :: List.replicate n (.str root) ++ rest)
      = namedKeys (List.replicate n (.str root) ++ rest) + 2 := if_pos ⟨rfl, hbase⟩
  rw [hnamed, namedKeys_replicate, List.length_cons, List.length_cons, List.length_replicate]
  omega

theorem exists_named (h : ¬ σ.BehindRoot front) :
    ∃ m ≤ front.length, ∀ x rest, (∀ w, x ≠ .word w) → σ.named (front ++ x :: rest) = m := by
  match front, h with
  | [], _ | [.word _], _ =>
    refine ⟨0, Nat.zero_le _, fun x rest hx => ?_⟩
    cases x with
    | word w => exact absurd rfl (hx w)
    | str s => rfl
    | num n => rfl
    | group stages => rfl
  | .word w :: .word base :: keys, h =>
    have hnamed : ∀ rest, σ.named (.word w :: .word base :: keys ++ rest)
        = if w = "index".toList ∧ σ.word? base = some root then namedKeys (keys ++ rest) + 2
          else 0 := fun rest => rfl
    by_cases hroot : w = "index".toList ∧ σ.word? base = some root
    · have hkeys : ∀ n, keys ≠ List.replicate n (.str root) := by
        rintro n rfl
        exact h ⟨base, n, hroot.2, by rw [hroot.1]⟩
      obtain ⟨m, hm, hsame⟩ := exists_namedKeys hkeys
      refine ⟨m + 2, Nat.add_le_add_right hm 2, fun x rest _ => ?_⟩
      rw [hnamed, if_pos hroot, hsame]
    · exact ⟨0, Nat.zero_le _, fun x rest _ => (hnamed _).trans (if_neg hroot)⟩
  | .str _ :: _, _ | .num _ :: _, _ | .group _ :: _, _ | .word _ :: .str _ :: _, _
  | .word _ :: .num _ :: _, _ | .word _ :: .group _ :: _, _ =>
    exact ⟨0, Nat.zero_le _, fun x rest _ => rfl⟩

theorem stageStrings_append {m : Nat} (hm : m ≤ front.length)
    (hnamed : σ.named (front ++ x :: back) = m) :
    σ.stageStrings (front ++ x :: back)
      = ((σ.termStrings front).drop m).flatten
          ++ (σ.strings x ++ (σ.termStrings back).flatten) := by
  have hlength : m ≤ (front.map σ.strings).length := by rwa [List.length_map]
  rw [stageStrings, hnamed]
  simp only [termStrings_eq_map, List.map_append, List.map_cons,
    List.drop_append_of_le_length hlength, List.flatten_append, List.flatten_cons]

theorem allStrings_eq (ps : List (List Char)) (stages : List (List Term)) :
    σ.allStrings ps stages = σ.allStrings [] stages ++ ps := by
  induction stages generalizing ps with
  | nil => rfl
  | cons stage rest ih =>
    rw [allStrings, ih, allStrings, ih (_ ++ []), List.append_nil, List.append_assoc]

theorem allStrings_append (before after : Pipeline) (stage : Stage) :
    σ.allStrings [] (before ++ stage :: after)
      = σ.allStrings [] after ++ (σ.stageStrings stage ++ σ.allStrings [] before) := by
  have hall : ∀ ps, σ.allStrings ps (before ++ stage :: after)
      = σ.allStrings [] after ++ (σ.stageStrings stage ++ σ.allStrings ps before) := by
    induction before with
    | nil => exact fun ps => allStrings_eq _ after
    | cons first before ih => exact fun ps => ih _
  exact hall []

/-- The strings of a stage around one of its operands, which keeps its own unless it is a name. -/
theorem exists_stageStrings (σ : Scope) (front back : Stage) : ∃ left right,
    (∀ x, (∀ w, x ≠ Term.word w) →
      (σ.BehindRoot front → ∀ key, x = .str key → isIdentifier key = false) →
        σ.stageStrings (front ++ x :: back) = left ++ (σ.strings x ++ right)) ∧
    (σ.BehindRoot front → ∀ key, isIdentifier key = true → key ≠ root →
      σ.stageStrings (front ++ .str key :: back) = left ++ right) := by
  by_cases hroot : σ.BehindRoot front
  · refine ⟨((σ.termStrings front).drop front.length).flatten, (σ.termStrings back).flatten,
      fun x hword hname => stageStrings_append (Nat.le_refl _) ?_, fun _ key hkey hne => ?_⟩
    · rw [named_of_behindRoot hroot]
      cases x with
      | str key =>
        have hkey : isIdentifier key = false := hname hroot key rfl
        have hne : key ≠ root := by
          rintro rfl
          exact absurd hkey (by decide)
        rw [namedKeys, if_neg hne, hkey]
        rfl
      | num n => rfl
      | word w => exact absurd rfl (hword w)
      | group stages => rfl
    · have hnamed : σ.named (front ++ .str key :: back) = front.length + 1 := by
        rw [named_of_behindRoot hroot, namedKeys, if_neg hne, if_pos hkey]
      rw [stageStrings, hnamed]
      simp [termStrings_eq_map, List.drop_append, List.drop_eq_nil_of_le]
  · obtain ⟨m, hm, hnamed⟩ := exists_named hroot
    exact ⟨_, _, fun x hword _ => stageStrings_append hm (hnamed x back hword),
      fun h => absurd h hroot⟩

/-- The strings around a hole are the same whatever is in it, and its own string is among them
unless it is a name. -/
theorem exists_allStrings (σ : Scope) (hole : Hole) : ∃ left right, ∀ s,
    ((σ.BehindRoot hole.front → isIdentifier s = false) →
      σ.allStrings [] (hole.plug s) = left ++ s :: right) ∧
    (σ.BehindRoot hole.front → isIdentifier s = true → s ≠ root →
      σ.allStrings [] (hole.plug s) = left ++ right) := by
  induction hole with
  | here before front back after =>
    obtain ⟨left, right, hstring, hname⟩ := exists_stageStrings σ front back
    refine ⟨σ.allStrings [] after ++ left, right ++ σ.allStrings [] before,
      fun s => ⟨fun hother => ?_, fun hroot hkey hne => ?_⟩⟩
    · have hstage := hstring (.str s) (fun _ => nofun) fun hroot key hkey => by
        cases hkey
        exact hother hroot
      rw [Hole.plug, allStrings_append, hstage]
      simp [strings]
    · rw [Hole.plug, allStrings_append, hname hroot s hkey hne]
      simp
  | within before front inner back after ih =>
    obtain ⟨left, right, ih⟩ := ih
    obtain ⟨left', right', hstage, -⟩ := exists_stageStrings σ front back
    have hall : ∀ s, σ.allStrings [] ((Hole.within before front inner back after).plug s)
        = σ.allStrings [] after ++ left' ++ σ.allStrings [] (inner.plug s)
          ++ (right' ++ σ.allStrings [] before) := by
      intro s
      rw [Hole.plug, allStrings_append,
        hstage (.group (inner.plug s)) (fun _ => nofun) fun _ _ => nofun]
      simp [strings]
    refine ⟨σ.allStrings [] after ++ left' ++ left, right ++ (right' ++ σ.allStrings [] before),
      fun s => ⟨fun hname => ?_, fun hroot hname hne => ?_⟩⟩
    · rw [hall, (ih s).1 hname]
      simp
    · rw [hall, (ih s).2 hroot hname hne]
      simp

end Places

/-! ### What is supported -/

section Supported

variable {σ : Scope} {s s' : List Char} {front back : Stage} {x x' : Term}

theorem isSome_bind_of {α β : Type} {o o' : Option α} {f : α → Option β}
    (ho : o'.isSome = true → o.isSome = true) (hf : ∀ a b, (f a).isSome = (f b).isSome)
    (h : (o'.bind f).isSome = true) : (o.bind f).isSome = true := by
  cases o' with
  | none => cases h
  | some a =>
    obtain ⟨b, rfl⟩ := Option.isSome_iff_exists.1 (ho rfl)
    exact (hf b a).trans h

/-- Whether a function is supported with this number of arguments. -/
def takes (σ : Scope) (name : List Char) : Nat → Bool
  | 0 => false
  | 1 => name = "not".toList || (name = "len".toList || σ.filters.contains name)
  | count + 2 =>
    (count = 0 && (comparison? name).isSome) || (name = "and".toList || name = "or".toList)

theorem isSome_ite_some {p : Prop} [Decidable p] (a : List Char) (o : Option (List Char)) :
    (if p then some a else o).isSome = (decide p || o.isSome) := by
  by_cases hp : p <;> simp only [hp, if_true, if_false] <;> rfl

/-- Whether a call is supported is decided by its name and the number of its arguments. -/
theorem isSome_call? (σ : Scope) (name : List Char) (args : List (List Char)) :
    (σ.call? name args).isSome = σ.takes name args.length := by
  cases args with
  | nil =>
    have hnone : σ.call? name [] = none := by
      unfold call?
      cases comparison? name <;> exact ite_self none
    rw [hnone]
    rfl
  | cons a args =>
    cases args with
    | nil =>
      have hone : σ.call? name [a] = call?.filter? σ name [a] := by
        unfold call?
        cases comparison? name <;> exact ite_self _
      rw [hone, call?.filter?, isSome_ite_some, isSome_ite_some, isSome_ite_some,
        Bool.decide_eq_true, Option.isSome_none, Bool.or_false]
      rfl
    | cons b args =>
      have hjoined : (if name = "and".toList ∨ name = "or".toList then
          some (joinWith (' ' :: (name ++ [' '])) (a :: b :: args)) else none).isSome
            = (decide (name = "and".toList) || decide (name = "or".toList)) := by
        rw [isSome_ite_some, Bool.decide_or, Option.isSome_none, Bool.or_false]
      unfold call?
      rw [List.length_cons, List.length_cons, takes]
      cases comparison? name with
      | none =>
        rw [Option.isSome_none, Bool.and_false, Bool.false_or]
        exact hjoined
      | some op =>
        cases args with
        | nil => rfl
        | cons c args => exact hjoined

theorem length_of_terms? {ts : List Term} {texts : List (List Char)}
    (h : σ.terms? ts = some texts) : texts.length = ts.length := by
  induction ts generalizing texts with
  | nil =>
    cases h
    rfl
  | cons t rest ih =>
    obtain ⟨first, -, hmore⟩ := Option.bind_eq_some_iff.1 h
    obtain ⟨more, hrest, rfl⟩ := Option.map_eq_some_iff.1 hmore
    rw [List.length_cons, List.length_cons, ih hrest]

/-- Terms are supported one by one. -/
theorem isSome_terms?_iff {ts : List Term} :
    (σ.terms? ts).isSome = true ↔ ∀ t ∈ ts, (σ.term? t).isSome = true := by
  induction ts with
  | nil => exact iff_of_true rfl fun t ht => absurd ht List.not_mem_nil
  | cons t rest ih =>
    rw [terms?, List.forall_mem_cons, ← ih]
    cases σ.term? t <;> cases σ.terms? rest <;> simp

/-- What is piped into a stage does not decide whether it is supported. -/
theorem isSome_stage? (σ : Scope) (piped piped' : List Char) (stage : Stage) :
    (σ.stage? (some piped) stage).isSome = (σ.stage? (some piped') stage).isSome := by
  cases stage with
  | nil => rfl
  | cons t rest =>
    rw [stage?_eq, stage?_eq, Option.isNone_some, Option.isNone_some]
    rcases stageKind_of_piped t rest with ⟨name, hkind⟩ | hkind
    · rw [hkind]
      cases hterms : σ.terms? rest with
      | none => rfl
      | some args => simp [isSome_call?]
    · rw [hkind]

theorem isSome_stages? (σ : Scope) (piped piped' : List Char) (stages : Pipeline) :
    (σ.stages? (some piped) stages).isSome = (σ.stages? (some piped') stages).isSome := by
  induction stages generalizing piped piped' with
  | nil => rfl
  | cons stage rest ih =>
    have hstage := isSome_stage? σ piped piped' stage
    rw [stages?, stages?, Bool.eq_iff_iff]
    exact ⟨isSome_bind_of (fun h => hstage ▸ h) ih, isSome_bind_of (fun h => hstage ▸ h) ih⟩

/-- A stage is handed on by the stages in front of it, whatever it is. -/
theorem stages?_around (σ : Scope) (piped : Option (List Char)) (before : Pipeline) :
    (∀ stage after, σ.stages? piped (before ++ stage :: after) = none) ∨
      ∃ piped', ∀ stage after, σ.stages? piped (before ++ stage :: after)
        = (σ.stage? piped' stage).bind fun text => σ.stages? (some text) after := by
  induction before generalizing piped with
  | nil => exact .inr ⟨piped, fun stage after => rfl⟩
  | cons first before ih =>
    have hcons : ∀ stage after, σ.stages? piped (first :: before ++ stage :: after)
        = (σ.stage? piped first).bind fun text =>
            σ.stages? (some text) (before ++ stage :: after) :=
      fun stage after => rfl
    cases hfirst : σ.stage? piped first with
    | none => exact .inl fun stage after => by rw [hcons, hfirst]; rfl
    | some text =>
      rcases ih (some text) with hnone | ⟨piped', hsame⟩
      · exact .inl fun stage after => by rw [hcons, hfirst]; exact hnone stage after
      · exact .inr ⟨piped', fun stage after => by rw [hcons, hfirst]; exact hsame stage after⟩

/-- So a pipeline is supported with a stage if it is with another one that is not supported more
often. -/
theorem isSome_stages?_of_stage? {stage stage' : Stage}
    (hstage : ∀ piped, (σ.stage? piped stage').isSome = true → (σ.stage? piped stage).isSome = true)
    (before after : Pipeline) (h : (σ.stages? none (before ++ stage' :: after)).isSome = true) :
    (σ.stages? none (before ++ stage :: after)).isSome = true := by
  rcases stages?_around σ none before with hnone | ⟨piped, hsame⟩
  · rw [hnone] at h
    cases h
  · rw [hsame] at h ⊢
    exact isSome_bind_of (hstage piped) (fun a b => isSome_stages? σ a b after) h

/-- The subscripts of a reference other than the whole namespace are supported if they are for any
reference. -/
theorem isSome_keys {keys : List Term} {base base' : List Char} (hbase : base ≠ root)
    (h : (keys.foldlM σ.subscript? base').isSome = true) :
    (keys.foldlM σ.subscript? base).isSome = true := by
  induction keys generalizing base base' with
  | nil => rfl
  | cons key keys ih =>
    rw [List.foldlM_cons] at h ⊢
    obtain ⟨text, htext⟩ := Option.isSome_iff_exists.1 h
    obtain ⟨next', hnext', hrest⟩ := Option.bind_eq_some_iff.1 htext
    have hnext : ∃ next, σ.subscript? base key = some next := by
      cases key with
      | str x =>
        rw [subscript?] at hnext'
        split at hnext'
        · next hname =>
          obtain ⟨literal, hliteral⟩ := exists_literal?_of_isIdentifier hname.2
          exact ⟨_, (if_neg fun h => hbase h.1).trans (by rw [hliteral]; rfl)⟩
        · obtain ⟨literal, hliteral, -⟩ := Option.map_eq_some_iff.1 hnext'
          exact ⟨_, (if_neg fun h => hbase h.1).trans (by rw [hliteral]; rfl)⟩
      | num n =>
        rw [subscript?] at hnext'
        split at hnext'
        · next hdigits => exact ⟨_, if_pos ⟨hbase, hdigits.2⟩⟩
        · cases hnext'
      | word w =>
        obtain ⟨path, hpath, hnext'⟩ := Option.bind_eq_some_iff.1 hnext'
        split at hnext'
        · cases hnext'
        · next hpathroot =>
          exact ⟨_, (congrArg (Option.bind · _) hpath).trans (if_neg hpathroot)⟩
      | group stages => cases hnext'
    obtain ⟨next, hnext⟩ := hnext
    have hne : next ≠ root := by
      rintro rfl
      exact hbase (eq_root_of_subscript? hnext).1
    rw [hnext]
    exact ih hne (Option.isSome_iff_exists.2 ⟨text, hrest⟩)

/-- Only its own names lead from the whole namespace to itself. -/
theorem eq_root_of_keys {keys : List Term} {base : List Char}
    (h : keys.foldlM σ.subscript? base = some root) :
    base = root ∧ ∃ n, keys = List.replicate n (.str root) := by
  induction keys generalizing base with
  | nil =>
    cases h
    exact ⟨rfl, 0, rfl⟩
  | cons key keys ih =>
    rw [List.foldlM_cons] at h
    obtain ⟨next, hnext, h⟩ := Option.bind_eq_some_iff.1 h
    obtain ⟨rfl, n, rfl⟩ := ih h
    obtain ⟨rfl, rfl⟩ := eq_root_of_subscript? hnext
    exact ⟨rfl, n + 1, rfl⟩

theorem index?_cons (base : List Char) {keys : List Term} (h : keys ≠ []) :
    σ.index? (.word base :: keys) = (σ.word? base).bind fun first =>
      keys.foldlM σ.subscript? first := by
  cases keys with
  | nil => exact absurd rfl h
  | cons key keys => rfl

/-- A key can be replaced by any other string that has a literal, but for the own name of the
namespace directly behind it. -/
theorem isSome_index? {base : List Char} {keys back : List Term} (hs : (literal? s).isSome = true)
    (hroot : σ.BehindRoot (.word "index".toList :: .word base :: keys) → s ≠ root)
    (h : (σ.index? (.word base :: (keys ++ .str s' :: back))).isSome = true) :
    (σ.index? (.word base :: (keys ++ .str s :: back))).isSome = true := by
  have hne : ∀ x : Term, keys ++ x :: back ≠ [] := by simp
  rw [index?_cons base (hne _)] at h ⊢
  obtain ⟨text, htext⟩ := Option.isSome_iff_exists.1 h
  obtain ⟨first, hfirst, htext⟩ := Option.bind_eq_some_iff.1 htext
  rw [List.foldlM_append] at htext
  obtain ⟨path, hpath, htext⟩ := Option.bind_eq_some_iff.1 htext
  rw [List.foldlM_cons] at htext
  obtain ⟨next', -, hback⟩ := Option.bind_eq_some_iff.1 htext
  obtain ⟨literal, hliteral⟩ := Option.isSome_iff_exists.1 hs
  have hnext : ∃ next, σ.subscript? path (.str s) = some next := by
    rw [subscript?, hliteral]
    split
    · exact ⟨_, rfl⟩
    · exact ⟨_, rfl⟩
  obtain ⟨next, hnext⟩ := hnext
  have hother : next ≠ root := by
    rintro rfl
    obtain ⟨rfl, he⟩ := eq_root_of_subscript? hnext
    obtain ⟨rfl, n, rfl⟩ := eq_root_of_keys hpath
    cases he
    exact hroot ⟨base, n, hfirst, rfl⟩ rfl
  have hsome := isSome_keys hother (Option.isSome_iff_exists.2 ⟨text, hback⟩)
  rw [hfirst, Option.bind_some, List.foldlM_append, hpath]
  show ((Term.str s :: back).foldlM σ.subscript? path).isSome = true
  rw [List.foldlM_cons, hnext]
  exact hsome

/-- No group is a subscript. -/
theorem index?_group (base : List Char) (keys back : List Term) (p : Pipeline) :
    σ.index? (.word base :: (keys ++ .group p :: back)) = none := by
  rw [index?_cons base (by simp), Option.bind_eq_none_iff]
  intro first _
  rw [List.foldlM_append]
  refine Option.bind_eq_none_iff.2 fun path _ => ?_
  rw [List.foldlM_cons]
  rfl

theorem index?_of_ne_word (hx : ∀ w, x ≠ .word w) (rest : List Term) :
    σ.index? (x :: rest) = none := by
  cases x with
  | word w => exact absurd rfl (hx w)
  | str s => rfl
  | num n => rfl
  | group stages => rfl

/-- A call is supported with an operand if it is with another one that is not supported more
often. -/
theorem isSome_call?_of_term? {name : List Char} (piped : Option (List Char))
    (hterm : (σ.term? x').isSome = true → (σ.term? x).isSome = true)
    (h : ((σ.terms? (front ++ x' :: back)).bind fun args =>
      σ.call? name (args ++ piped.toList)).isSome = true) :
    ((σ.terms? (front ++ x :: back)).bind fun args =>
      σ.call? name (args ++ piped.toList)).isSome = true := by
  obtain ⟨text, htext⟩ := Option.isSome_iff_exists.1 h
  obtain ⟨args', hargs', hcall⟩ := Option.bind_eq_some_iff.1 htext
  have hall' := isSome_terms?_iff.1 (Option.isSome_iff_exists.2 ⟨args', hargs'⟩)
  have hall : ∀ t ∈ front ++ x :: back, (σ.term? t).isSome = true := by
    rw [List.forall_mem_append, List.forall_mem_cons] at hall' ⊢
    exact ⟨hall'.1, hterm hall'.2.1, hall'.2.2⟩
  obtain ⟨args, hargs⟩ := Option.isSome_iff_exists.1 (isSome_terms?_iff.2 hall)
  have hlength : (args ++ piped.toList).length = (args' ++ piped.toList).length := by
    rw [List.length_append, List.length_append, length_of_terms? hargs, length_of_terms? hargs',
      List.length_append, List.length_append]
    rfl
  rw [hargs, Option.bind_some, isSome_call?, hlength, ← isSome_call?, hcall]
  rfl

/-- So is a stage, if the operand is no word. -/
theorem isSome_stage?_of_term? (x x' : Term) (hx : ∀ w, x ≠ .word w) (hx' : ∀ w, x' ≠ .word w)
    (hterm : (σ.term? x').isSome = true → (σ.term? x).isSome = true)
    (hindex : ∀ base keys, front = .word "index".toList :: .word base :: keys →
      (σ.index? (.word base :: (keys ++ x' :: back))).isSome = true →
        (σ.index? (.word base :: (keys ++ x :: back))).isSome = true)
    (piped : Option (List Char)) (h : (σ.stage? piped (front ++ x' :: back)).isSome = true) :
    (σ.stage? piped (front ++ x :: back)).isSome = true := by
  cases front with
  | nil =>
    have hkind : stageKind piped.isNone x' back = stageKind piped.isNone x back := by
      unfold stageKind
      rw [calledName?_eq_none hx, calledName?_eq_none hx']
    rw [List.nil_append, stage?_eq, hkind] at h
    rw [List.nil_append, stage?_eq]
    generalize stageKind piped.isNone x back = kind at h ⊢
    cases kind with
    | alone => exact hterm h
    | index => exact h
    | call name => exact h
    | refused => exact h
  | cons t front =>
    have hempty : ∀ y : Term, (front ++ y :: back).isEmpty = false := by
      intro y
      cases front <;> rfl
    have hkind : stageKind piped.isNone t (front ++ x' :: back)
        = stageKind piped.isNone t (front ++ x :: back) := by
      unfold stageKind
      rw [hempty, hempty]
    rw [List.cons_append, stage?_eq, hkind] at h
    rw [List.cons_append, stage?_eq]
    cases hsame : stageKind piped.isNone t (front ++ x :: back) with
    | alone =>
      have hnil := (of_stageKind_alone hsame).2
      simp at hnil
    | index =>
      rw [hsame] at h
      obtain ⟨-, rfl⟩ := of_stageKind_index hsame
      cases front with
      | nil =>
        rw [List.nil_append, index?_of_ne_word hx'] at h
        cases h
      | cons base keys =>
        cases base with
        | word w => exact hindex w keys rfl h
        | str s => cases h
        | num n => cases h
        | group stages => cases h
    | call name =>
      rw [hsame] at h
      exact isSome_call?_of_term? piped hterm h
    | refused =>
      rw [hsame] at h
      cases h

/-- **Whether a pipeline is supported** does not depend on the string in a hole of it, if the string
has a literal, but for the own name of the namespace directly behind it. -/
theorem isSome_plug (hs : (literal? s).isSome = true) (hole : Hole)
    (hroot : σ.BehindRoot hole.front → s ≠ root)
    (h : (σ.stages? none (hole.plug s')).isSome = true) :
    (σ.stages? none (hole.plug s)).isSome = true := by
  induction hole with
  | here before front back after =>
    refine isSome_stages?_of_stage? (isSome_stage?_of_term? (.str s) (.str s') (fun _ => nofun)
      (fun _ => nofun) (fun _ => hs) fun base keys hfront => ?_) before after h
    refine isSome_index? hs fun hbehind => hroot ?_
    rw [← hfront] at hbehind
    exact hbehind
  | within before front inner back after ih =>
    refine isSome_stages?_of_stage? (isSome_stage?_of_term? (.group (inner.plug s))
      (.group (inner.plug s')) (fun _ => nofun) (fun _ => nofun) (fun hinner => ?_)
      fun base keys _ hgroup => ?_) before after h
    · rw [term?, Option.isSome_map] at hinner ⊢
      exact ih hroot hinner
    · rw [index?_group] at hgroup
      cases hgroup

end Supported

/-! ### Tags -/

/-- Where a string stands in a tag: the tag is left alone, whatever the string is, or what it
becomes is a text around that of a pipeline with the string in a hole. -/
theorem body?_string (σ : Scope) {before after : List Token} (hbefore : PlainNumerals before)
    (hafter : PlainNumerals after) :
    (∀ s, σ.body? (before ++ .str s :: after) = none) ∨
      ∃ (hole : Hole) (make : List Char → TagBody) (σ' : Scope),
        (σ.BehindRoot hole.front → σ.BehindNamespace before) ∧ Wraps make ∧
          ∀ s, PlainStages (hole.plug s) ∧ σ.body? (before ++ .str s :: after)
            = (σ.stages? none (hole.plug s)).map fun text => (make text, σ') := by
  rcases stringBody σ before after with hnone | ⟨lead, front, make, σ', hlead, rfl, hmake, hbody⟩
  · exact .inl hnone
  rcases readPipeline?_string front after with hnone | ⟨hole, hends, hread⟩
  · exact .inl fun s => by rw [hbody, Scope.pipeline?, hnone]; rfl
  · refine .inr ⟨hole, make, σ', fun hroot => hroot.of_endsWith hends hlead, hmake,
      fun s => ⟨plain_of_readPipeline? (fun n hn => ?_) (hread s), ?_⟩⟩
    · rcases List.mem_append.1 hn with hn | hn
      · exact hbefore n (List.mem_append_right _ hn)
      · rcases List.mem_cons.1 hn with he | hn
        · cases he
        · exact hafter n hn
    · rw [hbody, Scope.pipeline?, hread, Option.bind_some]

section Carried

variable {σ : Scope} {opening : List Char} {before : List Token}

/-- So does a tag around a written text. -/
theorem tag?_string (hbefore : scan? (leadingMarker opening).2 = some before)
    (closing : List Char) :
    (∀ s w, Written s w → σ.tag? (tagAround opening w closing) = none) ∨
      ∃ (hole : Hole) (front back : List Char) (σ' : Scope),
        (σ.BehindRoot hole.front → σ.BehindNamespace before) ∧ NoLiteral front ∧ NoLiteral back ∧
          ∀ s w, Written s w → PlainStages (hole.plug s) ∧ σ.tag? (tagAround opening w closing)
            = (σ.stages? none (hole.plug s)).map fun text => (front ++ (text ++ back), σ') := by
  cases hafter : tokensBehind? closing with
  | none => exact .inl fun s w hw => by rw [tag?_written hbefore hw, hafter]; rfl
  | some after =>
    have htag : ∀ s w, Written s w → σ.tag? (tagAround opening w closing)
        = (σ.body? (before ++ .str s :: after)).map fun r =>
            (r.1.text (leadingMarker opening).1 (trailingMarker closing).1, r.2) := by
      intro s w hw
      rw [tag?_written hbefore hw, hafter]
      rfl
    rcases body?_string σ (plainNumerals_of_scan? hbefore) (plainNumerals_of_scan? hafter) with
      hnone | ⟨hole, make, σ', hbehind, hmake, hbody⟩
    · exact .inl fun s w hw => by rw [htag s w hw, hnone]; rfl
    · obtain ⟨front, back, hfront, hback, htext⟩ :=
        hmake (leadingMarker opening).1 (trailingMarker closing).1
      refine .inr ⟨hole, front, back, σ', hbehind, hfront, hback, fun s w hw => ?_⟩
      refine ⟨(hbody s).1, ?_⟩
      rw [htag s w hw, (hbody s).2, Option.map_map]
      exact congrArg (Option.map · _) (funext fun text => congrArg (·, σ') (htext text))

/-- The literals of what a tag becomes are the same whatever is written in it, but for the string
itself, which is one of them unless it is a name. -/
theorem exists_hasLiterals (hσ : σ.Sound) (hbefore : scan? (leadingMarker opening).2 = some before)
    (closing : List Char) : ∃ left right, ∀ s w out σ', Written s w →
      σ.tag? (tagAround opening w closing) = some (out, σ') →
        HasLiterals out (left ++ s :: right) ∨
          σ.BehindNamespace before ∧ isIdentifier s = true ∧
            (s ≠ root → HasLiterals out (left ++ right)) := by
  rcases tag?_string hbefore closing with
    hnone | ⟨hole, front, back, σ', hbehind, hfront, hback, htag⟩
  · refine ⟨[], [], fun s w out σ' hw h => ?_⟩
    rw [hnone s w hw] at h
    cases h
  · obtain ⟨left, right, hstrings⟩ := exists_allStrings σ hole
    refine ⟨left, right, fun s w out τ hw h => ?_⟩
    obtain ⟨hplain, hsome⟩ := htag s w hw
    rw [hsome] at h
    obtain ⟨text, htext, he⟩ := Option.map_eq_some_iff.1 h
    cases he
    have hall := HasLiterals.between hfront
      (hasLiterals_of_stages? hσ none [] .done _ text hplain htext) hback
    by_cases hname : σ.BehindRoot hole.front ∧ isIdentifier s = true
    · refine .inr ⟨hbehind hname.1, hname.2, fun hroot => ?_⟩
      rwa [(hstrings s).2 hname.1 hname.2 hroot] at hall
    · refine .inl ?_
      rwa [(hstrings s).1 fun hroot => Bool.eq_false_iff.2 fun h => hname ⟨hroot, h⟩] at hall

/-- A tag is left alone for its string only if that holds all three quotes. -/
theorem untranslated_of_none (hbefore : scan? (leadingMarker opening).2 = some before)
    {s w closing : List Char} (hw : Written s w)
    (h : σ.tag? (tagAround opening w closing) = none) :
    (∀ q ∈ quotes, q ∈ s) ∨ (σ.BehindNamespace before ∧ s = root) ∨
      ∀ s' w', Written s' w' → σ.tag? (tagAround opening w' closing) = none := by
  rcases tag?_string hbefore closing with hnone | ⟨hole, front, back, σ', hbehind, -, -, htag⟩
  · exact .inr (.inr hnone)
  · cases hliteral : literal? s with
    | none => exact .inl (literal?_eq_none_iff.1 hliteral)
    | some t =>
      by_cases hroot : σ.BehindRoot hole.front ∧ s = root
      · exact .inr (.inl ⟨hbehind hroot.1, hroot.2⟩)
      · refine .inr (.inr fun s' w' hw' => ?_)
        rw [(htag s w hw).2, Option.map_eq_none_iff] at h
        rw [(htag s' w' hw').2, Option.map_eq_none_iff, ← Option.not_isSome_iff_eq_none]
        intro hsome
        have hplug := isSome_plug (Option.isSome_iff_exists.2 ⟨t, hliteral⟩) hole
          (fun hfront he => hroot ⟨hfront, he⟩) hsome
        rw [h] at hplug
        cases hplug

/-- **Strings come through.** Take any place in a tag where a string can stand, and write any text
`s` there.

* If the tag is translated, `s` is read as a literal of what it becomes, among other literals that
  do not depend on `s`. Only behind `index` and the whole namespace an identifier is a name, and
  then there is no literal in its place.
* The tag is left alone only if `s` holds all three quotes, or if it is left alone for all texts;
  or if `s` is `__root` behind `index` and the whole namespace.
* A tag with a string that is not closed is left alone. -/
theorem strings_come_through {filters : List (List Char)} (hσ : Reached filters σ)
    (hbefore : scan? (leadingMarker opening).2 = some before) :
    (∀ closing, ∃ left right, ∀ s w out σ', Written s w →
      σ.tag? (tagAround opening w closing) = some (out, σ') →
        HasLiterals out (left ++ s :: right) ∨
          σ.BehindNamespace before ∧ isIdentifier s = true ∧
            (s ≠ root → HasLiterals out (left ++ right))) ∧
    (∀ closing s w, Written s w → σ.tag? (tagAround opening w closing) = none →
      (∀ q ∈ quotes, q ∈ s) ∨ (σ.BehindNamespace before ∧ s = root) ∨
        ∀ s' w', Written s' w' → σ.tag? (tagAround opening w' closing) = none) ∧
    ∀ q rest, Unclosed rest q → σ.tag? (tagAround opening [q] rest) = none :=
  ⟨fun closing => exists_hasLiterals hσ.sound hbefore closing,
    fun _ _ _ hw h => untranslated_of_none hbefore hw h,
    fun _ _ h => tag?_unclosed hbefore h⟩

end Carried

/-- A size in inches, which holds a double quote. -/
def inches : List Char := ['5', '"']

theorem written_inches : Written inches "\"5\\\"\"".toList :=
  .quoted (.plain (by decide) (by decide) (.escape '"' .nil))

/-- A size that is compared is read as it is, and one that is not closed is left alone. -/
theorem strings_come_through_of_inches :
    ∃ out, ({ filters := [] } : Scope).tag?
        (tagAround " eq .size ".toList "\"5\\\"\"".toList " ".toList)
          = some (out, { filters := [] }) ∧
      (∃ left right, HasLiterals out (left ++ inches :: right)) ∧
      ({ filters := [] } : Scope).tag? (tagAround " eq .size ".toList ['\x60'] "5 ".toList)
        = none := by
  have hbefore : scan? (leadingMarker " eq .size ".toList).2
      = some [.word "eq".toList, .word ".size".toList] := by decide +kernel
  have htag : ({ filters := [] } : Scope).tag?
      (tagAround " eq .size ".toList "\"5\\\"\"".toList " ".toList)
        = some ("\x7b\x7b size == '5\"' \x7d\x7d".toList, { filters := [] }) :=
    tag?_of_becomes? (by decide +kernel)
  obtain ⟨hstrings, -, hunclosed⟩ := strings_come_through .start hbefore
  obtain ⟨left, right, hliterals⟩ := hstrings " ".toList
  refine ⟨_, htag, ⟨left, right, ?_⟩, hunclosed _ _ (.raw (by decide))⟩
  rcases hliterals _ _ _ _ written_inches htag with hall | ⟨-, hname, -⟩
  · exact hall
  · exact absurd hname (by decide)

/-- Behind `index` and the whole namespace a string is not always a literal: an identifier is a
name; and `__root` is the namespace itself, in which a numeral is no key. -/
theorem keys_are_names :
    (¬ ∀ (σ : Scope) (opening closing s w out : List Char) (σ' : Scope) (before : List Token),
      Reached [] σ → scan? (leadingMarker opening).2 = some before → Written s w →
        σ.tag? (tagAround opening w closing) = some (out, σ') →
          ∃ left right, HasLiterals out (left ++ s :: right)) ∧
    ¬ ∀ (σ : Scope) (opening closing s w : List Char) (before : List Token),
      Reached [] σ → scan? (leadingMarker opening).2 = some before → Written s w →
        σ.tag? (tagAround opening w closing) = none → (∀ q ∈ quotes, q ∈ s) ∨
          ∀ s' w', Written s' w' → σ.tag? (tagAround opening w' closing) = none := by
  have hbefore : scan? (leadingMarker " index . ".toList).2
      = some [.word "index".toList, .word ".".toList] := by decide +kernel
  constructor
  · intro hclaim
    have htag : ({ filters := [] } : Scope).tag?
        (tagAround " index . ".toList "\"user\"".toList " ".toList)
          = some ("\x7b\x7b user \x7d\x7d".toList, { filters := [] }) :=
      tag?_of_becomes? (by decide +kernel)
    have hwritten : Written "user".toList "\"user\"".toList :=
      .quoted (.plain (by decide) (by decide) (.plain (by decide) (by decide)
        (.plain (by decide) (by decide) (.plain (by decide) (by decide) .nil))))
    obtain ⟨left, right, hliterals⟩ := hclaim _ _ _ _ _ _ _ _ .start hbefore hwritten htag
    have hnone : NoLiteral "\x7b\x7b user \x7d\x7d".toList := noLiteral_of_all (by decide)
    have he := hnone.unique hliterals
    simp at he
  · intro hclaim
    have hroot : ({ filters := [] } : Scope).tag?
        (tagAround " index . ".toList ('\x60' :: (root ++ ['\x60'])) " 0 ".toList) = none :=
      Option.isNone_iff_eq_none.1 (by decide +kernel)
    have huser : ({ filters := [] } : Scope).tag?
        (tagAround " index . ".toList ['\x60', 'x', '\x60'] " 0 ".toList)
          = some ("\x7b\x7b x.0 \x7d\x7d".toList, { filters := [] }) :=
      tag?_of_becomes? (by decide +kernel)
    have hx : Written ['x'] ['\x60', 'x', '\x60'] := .raw (by decide)
    rcases hclaim _ _ _ _ _ _ .start hbefore (.raw (by decide)) hroot with hquotes | hnever
    · exact absurd (hquotes '"' (by decide)) (by decide)
    · rw [hnever _ _ hx] at huser
      cases huser

end Scope

end Runbook.Template.Action
