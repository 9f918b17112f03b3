import Runbook.Proofs.Template.Holes
/-!
# Strings in expressions

The literals in the text that a pipeline becomes are the strings of the pipeline.

* `Scope.allStrings` — the strings of a pipeline that stay strings, in the order in which they are
  written; `Scope.named` — the keys of the whole namespace that become names instead;
* `Scope.hasLiterals_of_keys`, `Scope.hasLiterals_of_root` — references with subscripts;
* `Scope.hasLiterals_of_call?` — calls;
* `Scope.hasLiterals_of_stages?` — pipelines.
-/

namespace Runbook.Template.Action

open Runbook.Text

namespace Scope

/-! ### The strings of a pipeline -/

/-- How many of the keys behind the whole namespace are names: its own name leads to itself, and an
identifier is the name of an entry. -/
def namedKeys : List Term → Nat
  | .str key :: keys =>
    if key = root then namedKeys keys + 1 else if isIdentifier key then 1 else 0
  | _ => 0

/-- How many of the first terms of a stage are names, if it looks up keys in the whole namespace. -/
def named (σ : Scope) : List Term → Nat
  | .word w :: .word base :: keys =>
    if w = "index".toList ∧ σ.word? base = some root then namedKeys keys + 2 else 0
  | _ => 0

mutual

/-- The strings in a term. -/
def strings (σ : Scope) : Term → List (List Char)
  | .str s => [s]
  | .num _ => []
  | .word _ => []
  | .group stages => σ.allStrings [] stages
termination_by structural t => t

/-- The strings in each of the terms of a stage. -/
def termStrings (σ : Scope) : List Term → List (List (List Char))
  | [] => []
  | t :: rest => σ.strings t :: σ.termStrings rest
termination_by structural t => t

/-- The strings in a pipeline that stay strings, in the order in which its expression has them: what
is piped into a stage stands behind its operands. -/
def allStrings (σ : Scope) (piped : List (List Char)) : List (List Term) → List (List Char)
  | [] => piped
  | stage :: rest =>
    σ.allStrings (((σ.termStrings stage).drop (σ.named stage)).flatten ++ piped) rest
termination_by structural t => t

end

/-- The strings in a stage that stay strings. -/
def stageStrings (σ : Scope) (stage : List Term) : List (List Char) :=
  ((σ.termStrings stage).drop (σ.named stage)).flatten

theorem termStrings_eq_map (σ : Scope) (ts : List Term) : σ.termStrings ts = ts.map σ.strings := by
  induction ts with
  | nil => rfl
  | cons t rest ih => rw [termStrings, ih]; rfl

theorem stageStrings_singleton (σ : Scope) (t : Term) : σ.stageStrings [t] = σ.strings t := by
  have hnamed : σ.named [t] = 0 := by cases t <;> rfl
  rw [stageStrings, hnamed]
  exact List.flatten_singleton

/-- A call has the strings of its arguments. -/
theorem stageStrings_of_call (σ : Scope) {isFirst : Bool} {t : Term} {rest : List Term}
    {name : List Char} (h : stageKind isFirst t rest = .call name) :
    σ.stageStrings (t :: rest) = (σ.termStrings rest).flatten := by
  obtain ⟨rfl, hne⟩ := of_stageKind_call h
  have hnamed : σ.named (.word name :: rest) = 0 := by
    cases rest with
    | nil => rfl
    | cons t rest =>
      cases t with
      | word base => exact if_neg fun h => hne h.1
      | str s => rfl
      | num n => rfl
      | group stages => rfl
  rw [stageStrings, hnamed]
  rfl

/-! ### Subscripts -/

section Subscripts

variable {σ : Scope} {base text : List Char} {keys : List Term} {t : Term}
  {bs : List (List Char)}

theorem not_mem_root {c : Char} (h : isIdentChar c = false) : c ∉ root :=
  not_mem_of_all (by decide) h

/-- Only its own name leads from the whole namespace to itself. -/
theorem eq_root_of_subscript? (h : σ.subscript? base t = some root) :
    base = root ∧ t = .str root := by
  have hbracket : ∀ key : List Char, base ++ '[' :: key ≠ root :=
    fun key he => not_mem_root (c := '[') rfl (he ▸ List.mem_append_right _ List.mem_cons_self)
  cases t with
  | str key =>
    rw [subscript?] at h
    split at h
    · next hname => exact ⟨hname.1, by rw [Option.some.inj h]⟩
    · obtain ⟨literal, -, he⟩ := Option.map_eq_some_iff.1 h
      exact absurd he (hbracket _)
  | num n =>
    rw [subscript?] at h
    split at h
    · have he := Option.some.inj h
      exact absurd (he ▸ List.mem_append_right _ List.mem_cons_self) (not_mem_root (c := '.') rfl)
    · cases h
  | word w =>
    obtain ⟨key, -, h⟩ := Option.bind_eq_some_iff.1 h
    split at h
    · cases h
    · exact absurd (Option.some.inj h) (hbracket _)
  | group stages => cases h

/-- A subscript has the literals of the reference and of its key, unless it is a name. -/
theorem hasLiterals_of_subscript? (hσ : σ.Sound) (hbase : HasLiterals base bs)
    (hname : base = root → ∀ key, t = .str key → isIdentifier key = false) (ht : t.Plain)
    (h : σ.subscript? base t = some text) : HasLiterals text (bs ++ σ.strings t) := by
  have hopen : NoLiteral ['['] := noLiteral_of_all rfl
  have hclose : NoLiteral [']'] := noLiteral_of_all rfl
  cases t with
  | str key =>
    rw [subscript?, if_neg fun hkey => by simp [hname hkey.1 key rfl] at hkey] at h
    obtain ⟨literal, hliteral, rfl⟩ := Option.map_eq_some_iff.1 h
    exact hbase.append (HasLiterals.between hopen (hasLiterals_of_literal? hliteral) hclose)
  | num n =>
    rw [subscript?] at h
    split at h
    · cases h
      exact hbase.append (.skip (by decide) (noLiteral_of_forall ht))
    · cases h
  | word w =>
    obtain ⟨key, hkey, h⟩ := Option.bind_eq_some_iff.1 h
    split at h
    · cases h
    · cases h
      exact hbase.append
        (HasLiterals.between hopen (noLiteral_of_isPath (hσ.word? hkey)) hclose)
  | group stages => cases h

/-- Behind a reference all keys keep their literals. -/
theorem hasLiterals_of_keys (hσ : σ.Sound) (hbase : HasLiterals base bs) (hroot : base ≠ root)
    (hkeys : PlainTerms keys) (h : keys.foldlM σ.subscript? base = some text) :
    HasLiterals text (bs ++ (σ.termStrings keys).flatten) := by
  induction keys generalizing base bs with
  | nil =>
    cases h
    rwa [termStrings, List.flatten_nil, List.append_nil]
  | cons key keys ih =>
    rw [List.foldlM_cons] at h
    obtain ⟨next, hnext, h⟩ := Option.bind_eq_some_iff.1 h
    have hkey := hasLiterals_of_subscript? hσ hbase (fun he => absurd he hroot) hkeys.1 hnext
    have hne : next ≠ root := by
      rintro rfl
      exact hroot (eq_root_of_subscript? hnext).1
    rw [termStrings, List.flatten_cons, ← List.append_assoc]
    exact ih hkey hne hkeys.2 h

/-- Behind the whole namespace the first keys may be names. -/
theorem hasLiterals_of_root (hσ : σ.Sound) (hkeys : PlainTerms keys)
    (h : keys.foldlM σ.subscript? root = some text) :
    HasLiterals text ((σ.termStrings keys).drop (namedKeys keys)).flatten := by
  induction keys with
  | nil =>
    cases h
    exact noLiteral_of_all rfl
  | cons key keys ih =>
    rw [List.foldlM_cons] at h
    obtain ⟨next, hnext, h⟩ := Option.bind_eq_some_iff.1 h
    have hother : (∀ x, key = .str x → isIdentifier x = false) →
        HasLiterals text (σ.termStrings (key :: keys)).flatten := by
      intro hname
      have hroot : NoLiteral root := noLiteral_of_all rfl
      have hkey := hasLiterals_of_subscript? hσ hroot (fun _ => hname) hkeys.1 hnext
      refine hasLiterals_of_keys hσ hkey ?_ hkeys.2 h
      rintro rfl
      exact absurd (hname root (eq_root_of_subscript? hnext).2) (by decide)
    cases key with
    | str x =>
      by_cases hx : isIdentifier x = true
      · have hname : σ.subscript? root (.str x) = some x := if_pos ⟨rfl, hx⟩
        rw [hname] at hnext
        obtain rfl : x = next := Option.some.inj hnext
        by_cases hroot : x = root
        · rw [hroot] at h
          rw [namedKeys, if_pos hroot]
          exact ih hkeys.2 h
        · rw [namedKeys, if_neg hroot, if_pos hx]
          exact hasLiterals_of_keys hσ (noLiteral_of_isIdentifier hx) hroot hkeys.2 h
      · have hroot : x ≠ root := by
          rintro rfl
          exact hx (by decide)
        rw [namedKeys, if_neg hroot, if_neg hx]
        exact hother fun y he => by cases he; exact Bool.eq_false_iff.2 hx
    | num n => exact hother nofun
    | word w => exact hother nofun
    | group stages => exact hother nofun

end Subscripts

/-! ### The literals of an expression -/

section Literals

variable {σ : Scope} {name text : List Char} {args : List (List Char)}
  {ss : List (List (List Char))}

theorem noLiteral_of_comparison? {op : List Char} (h : comparison? name = some op) :
    NoLiteral op := by
  rw [comparison?_eq] at h
  obtain ⟨op, -, rfl⟩ := Option.map_eq_some_iff.1 h
  cases op <;> exact noLiteral_of_all rfl

/-- A function of one argument has the literals of its argument. -/
theorem hasLiterals_of_filter? (hname : isIdentifier name = true)
    (hargs : List.Forall₂ HasLiterals args ss) (h : call?.filter? σ name args = some text) :
    HasLiterals text ss.flatten := by
  have hnot : NoLiteral "not ".toList := noLiteral_of_all rfl
  have hlength : NoLiteral " | length".toList := noLiteral_of_all rfl
  have hbar : NoLiteral " | ".toList := noLiteral_of_all rfl
  unfold call?.filter? at h
  split at h
  · next a =>
    obtain ⟨x, hx, rfl⟩ : ∃ x, HasLiterals a x ∧ ss = [x] := by
      cases hargs with
      | cons hx hrest =>
        cases hrest
        exact ⟨_, hx, rfl⟩
    rw [List.flatten_singleton]
    split at h
    · cases h
      exact hnot.append hx
    split at h
    · cases h
      have hall := hx.append hlength
      rwa [List.append_nil] at hall
    split at h
    · cases h
      have hall := (hx.append hbar).append (noLiteral_of_isIdentifier hname)
      rwa [List.append_nil, List.append_nil] at hall
    · cases h
  · cases h

/-- A call has the literals of its arguments. -/
theorem hasLiterals_of_call? (hname : isIdentifier name = true)
    (hargs : List.Forall₂ HasLiterals args ss) (h : σ.call? name args = some text) :
    HasLiterals text ss.flatten := by
  have hspace : NoLiteral [' '] := noLiteral_of_all rfl
  unfold call? at h
  split at h
  · next op a b hop =>
    obtain ⟨x, y, hx, hy, rfl⟩ : ∃ x y, HasLiterals a x ∧ HasLiterals b y ∧ ss = [x, y] := by
      cases hargs with
      | cons hx hrest =>
        cases hrest with
        | cons hy hrest =>
          cases hrest
          exact ⟨_, _, hx, hy, rfl⟩
    cases h
    have hop' : HasLiterals (' ' :: (op ++ ' ' :: b)) y :=
      hspace.append ((noLiteral_of_comparison? hop).append (hspace.append hy))
    simpa using hx.append hop'
  · split at h
    · split at h
      · cases h
        have hsep : NoLiteral (' ' :: (name ++ [' '])) :=
          hspace.append ((noLiteral_of_isIdentifier hname).append hspace)
        exact hasLiterals_joinWith hsep hargs
      · exact hasLiterals_of_filter? hname hargs h
    · exact hasLiterals_of_filter? hname hargs h

/-- Parentheses are no literals. -/
theorem hasLiterals_grouped {strings : List (List Char)} (h : HasLiterals text strings) :
    HasLiterals (grouped text) strings := by
  unfold grouped
  split
  · exact h
  · have hopen : NoLiteral ['('] := noLiteral_of_all rfl
    have hclose : NoLiteral [')'] := noLiteral_of_all rfl
    exact HasLiterals.between hopen h hclose

/-- The arguments of `index` have the literals of the stage. -/
theorem hasLiterals_of_index? (hσ : σ.Sound) {rest : List Term} (hrest : PlainTerms rest)
    (h : σ.index? rest = some text) :
    HasLiterals text (σ.stageStrings (.word "index".toList :: rest)) := by
  unfold index? at h
  split at h
  · next base key keys =>
    obtain ⟨first, hfirst, h⟩ := Option.bind_eq_some_iff.1 h
    by_cases hroot : first = root
    · rw [hroot] at h hfirst
      have hnamed : σ.named (.word "index".toList :: .word base :: key :: keys)
          = namedKeys (key :: keys) + 2 := if_pos ⟨rfl, hfirst⟩
      rw [stageStrings, hnamed]
      exact hasLiterals_of_root hσ hrest.2 h
    · have hnamed : σ.named (.word "index".toList :: .word base :: key :: keys) = 0 :=
        if_neg fun hbase => hroot (Option.some.inj (hfirst.symm.trans hbase.2))
      have hall : HasLiterals text ([] ++ (σ.termStrings (key :: keys)).flatten) :=
        hasLiterals_of_keys hσ (noLiteral_of_isPath (hσ.word? hfirst)) hroot hrest.2 h
      rw [stageStrings, hnamed]
      exact hall
  · cases h

/-- Where nothing is piped, no string is. -/
theorem eq_nil_of_isNone {piped : Option (List Char)} {ps : List (List Char)}
    (h : piped.isNone = true) (hps : HasLiterals (piped.getD []) ps) : ps = [] := by
  rw [Option.isNone_iff_eq_none.1 h] at hps
  exact hps.unique .done

mutual

theorem hasLiterals_of_term? (hσ : σ.Sound) : (t : Term) → (text : List Char) → t.Plain →
    σ.term? t = some text → HasLiterals text (σ.strings t)
  | .str s, text, _, h => hasLiterals_of_literal? h
  | .num n, text, hn, h => by
    cases h
    exact noLiteral_of_forall hn
  | .word w, text, _, h => noLiteral_of_isPath (hσ.word? h)
  | .group stages, text, hplain, h => by
    obtain ⟨inner, hinner, rfl⟩ := Option.map_eq_some_iff.1 h
    exact hasLiterals_grouped
      (hasLiterals_of_stages? hσ none [] .done stages inner hplain hinner)
termination_by structural t => t

theorem hasLiterals_of_terms? (hσ : σ.Sound) : (ts : List Term) → (texts : List (List Char)) →
    PlainTerms ts → σ.terms? ts = some texts →
      List.Forall₂ HasLiterals texts (σ.termStrings ts)
  | [], texts, _, h => by
    cases h
    exact .nil
  | t :: rest, texts, hplain, h => by
    obtain ⟨first, hfirst, hmore⟩ := Option.bind_eq_some_iff.1 h
    obtain ⟨more, hrest, rfl⟩ := Option.map_eq_some_iff.1 hmore
    exact .cons (hasLiterals_of_term? hσ t first hplain.1 hfirst)
      (hasLiterals_of_terms? hσ rest more hplain.2 hrest)
termination_by structural ts => ts

theorem hasLiterals_of_stage? (hσ : σ.Sound) (piped : Option (List Char)) (ps : List (List Char))
    (hpiped : HasLiterals (piped.getD []) ps) : (stage : List Term) → (text : List Char) →
      PlainTerms stage → σ.stage? piped stage = some text →
        HasLiterals text (σ.stageStrings stage ++ ps)
  | [], text, _, h => nomatch h
  | t :: rest, text, hplain, h => by
    rw [stage?_eq] at h
    cases hkind : stageKind piped.isNone t rest with
    | alone =>
      rw [hkind] at h
      obtain ⟨hfirst, rfl⟩ := of_stageKind_alone hkind
      rw [eq_nil_of_isNone hfirst hpiped, List.append_nil, stageStrings_singleton]
      exact hasLiterals_of_term? hσ t text hplain.1 h
    | index =>
      rw [hkind] at h
      obtain ⟨hfirst, rfl⟩ := of_stageKind_index hkind
      rw [eq_nil_of_isNone hfirst hpiped, List.append_nil]
      exact hasLiterals_of_index? hσ hplain.2 h
    | call name =>
      rw [hkind] at h
      obtain ⟨args, hargs, hcall⟩ := Option.bind_eq_some_iff.1 h
      have hrest := hasLiterals_of_terms? hσ rest args hplain.2 hargs
      have hname := isIdentifier_of_calledName? (calledName?_of_stageKind hkind)
      rw [stageStrings_of_call σ hkind]
      cases piped with
      | none =>
        rw [Option.toList_none, List.append_nil] at hcall
        rw [eq_nil_of_isNone rfl hpiped, List.append_nil]
        exact hasLiterals_of_call? hname hrest hcall
      | some x =>
        have hall := hasLiterals_of_call? hname (List.rel_append hrest (.cons hpiped .nil)) hcall
        simpa using hall
    | refused =>
      rw [hkind] at h
      cases h
termination_by structural stage => stage

theorem hasLiterals_of_stages? (hσ : σ.Sound) (piped : Option (List Char)) (ps : List (List Char))
    (hpiped : HasLiterals (piped.getD []) ps) : (stages : List (List Term)) → (text : List Char) →
      PlainStages stages → σ.stages? piped stages = some text →
        HasLiterals text (σ.allStrings ps stages)
  | [], text, _, h => by
    have hsome : piped = some text := h
    rw [hsome] at hpiped
    exact hpiped
  | stage :: rest, text, hplain, h => by
    obtain ⟨first, hfirst, hrest⟩ := Option.bind_eq_some_iff.1 h
    have hstage := hasLiterals_of_stage? hσ piped ps hpiped stage first hplain.1 hfirst
    exact hasLiterals_of_stages? hσ (some first) _ hstage rest text hplain.2 hrest
termination_by structural stages => stages

end

end Literals

end Scope

end Runbook.Template.Action
