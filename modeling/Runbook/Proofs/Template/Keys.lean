import Runbook.Proofs.Template.Brackets
import Runbook.Proofs.Template.StringTokens
/-!
# Entries by their keys

The action `index` looks up a key in the namespace, the next key in what is held under the first,
and so on.

* `indexTokens` — the action; `tagTokens?_indexText` — any keys can be written, with backslashes in
  front of some characters;
* `Scope.body?_index` — a first key that is an identifier becomes a name, any other key a subscript;
* `Reachable` — the keys that lead to what is held under them; `ShowsNested` — a tag shows that at
  every part of a template that rendering reaches, unless its name is bound on the way;
* `index_shows_nested_value` — the tag of reachable keys does, and a text with such tags is filled
  in; `index_misses_keys` — a key that holds all three quotes is missed.

A key comes through the tokens whatever it holds.  What it may hold is decided by its literal, which
has no escapes, and by the way its brackets are undone.
-/

namespace Runbook.Template.Action

open Runbook.Text

/-! ### Keys are written -/

/-- The word that an action with keys starts with. -/
def indexWord : List Char := "index".toList

/-- An action that looks up keys, each in what is held under the one before. -/
def indexTokens (base : List Char) (keys : List (List Char)) : List Token :=
  .word indexWord :: .word base :: keys.map .str

/-- A key between double quotes: behind a backslash, quotes, backslashes and closing braces are
characters of it. -/
def escaped (key : List Char) : List Char :=
  key.flatMap fun c => if c ∈ ['"', '\\', '}'] then ['\\', c] else [c]

/-- Keys in an action. -/
def keysText (keys : List (List Char)) : List Char :=
  keys.flatMap fun key => ' ' :: '"' :: (escaped key ++ ['"'])

theorem escaped_cons (c : Char) (key : List Char) :
    escaped (c :: key) = (if c ∈ ['"', '\\', '}'] then ['\\', c] else [c]) ++ escaped key := rfl

theorem keysText_cons (key : List Char) (keys : List (List Char)) :
    keysText (key :: keys) = ' ' :: '"' :: (escaped key ++ '"' :: keysText keys) := by
  simp [keysText]

/-- A key is spelled so. -/
theorem spells_escaped (key : List Char) : Spells key (escaped key) := by
  induction key with
  | nil => exact .nil
  | cons c key ih =>
    rw [escaped_cons]
    split
    · next hmem =>
      have hplain : ∀ c ∈ ['"', '\\', '}'], unescape c = c := by decide
      have hspells := Spells.escape c ih
      rwa [hplain c hmem] at hspells
    · next hmem =>
      have hc : c ≠ '"' ∧ c ≠ '\\' := by
        constructor <;> rintro rfl <;> exact hmem (by decide)
      exact .plain hc.1 hc.2 ih

/-- Written keys are the keys. -/
theorem scan?_keysText (keys : List (List Char)) :
    scan? (keysText keys) = some (keys.map .str) := by
  induction keys with
  | nil => rfl
  | cons key keys ih =>
    have hblank : lexeme? (keysText (key :: keys))
        = some ([], '"' :: (escaped key ++ ['"']) ++ keysText keys) := rfl
    rw [scan?_of_lexeme? hblank, scan?_written (.quoted (spells_escaped key)), ih]
    rfl

section Braces

variable {c : Char} {cs : List Char}

theorem contains_braces_of_head (hcs : cs.head? ≠ some '}') :
    contains ['}', '}'] (c :: cs) = contains ['}', '}'] cs := by
  have hnext : ['}'].isPrefixOf cs = false := by
    cases cs with
    | nil => rfl
    | cons d cs =>
      have hd : '}' ≠ d := fun he => hcs (congrArg some he.symm)
      rw [List.isPrefixOf, beq_eq_false_iff_ne.2 hd]
      rfl
  rw [contains, List.isPrefixOf, hnext, Bool.and_false, Bool.false_or]

/-- A closing brace in a written key stands behind a backslash, so no other one is before it. -/
theorem contains_braces_escaped (key : List Char) (hcs : cs.head? ≠ some '}') :
    (escaped key ++ cs).head? ≠ some '}' ∧
      contains ['}', '}'] (escaped key ++ cs) = contains ['}', '}'] cs := by
  induction key with
  | nil => exact ⟨hcs, rfl⟩
  | cons c key ih =>
    obtain ⟨hhead, hrest⟩ := ih
    rw [escaped_cons]
    split
    · refine ⟨fun he => absurd (Option.some.inj he) (by decide), ?_⟩
      show contains ['}', '}'] ('\\' :: c :: (escaped key ++ cs)) = _
      rw [contains_braces_of_ne (by decide) _, contains_braces_of_head hhead, hrest]
    · next hmem =>
      have hc : c ≠ '}' := by
        rintro rfl
        exact hmem (by decide)
      refine ⟨fun he => hc (Option.some.inj he), ?_⟩
      show contains ['}', '}'] (c :: (escaped key ++ cs)) = _
      rw [contains_braces_of_ne hc _, hrest]

end Braces

/-- No closing braces stand one behind the other in written keys. -/
theorem contains_braces_keysText (keys : List (List Char)) :
    contains ['}', '}'] (keysText keys) = false := by
  induction keys with
  | nil => rfl
  | cons key keys ih =>
    have hquote : ('"' :: keysText keys).head? ≠ some '}' :=
      fun he => absurd (Option.some.inj he) (by decide)
    rw [keysText_cons, contains_braces_of_ne (by decide) _, contains_braces_of_ne (by decide) _,
      (contains_braces_escaped key hquote).2, contains_braces_of_ne (by decide) _, ih]

/-- The names of the namespace in a text: a dot and a dollar sign. -/
def wholeNames : List Char := ['.', '$']

/-- An action that looks up written keys. -/
def indexText (base : Char) (keys : List (List Char)) : List Char :=
  indexWord ++ ' ' :: base :: keysText keys

/-- Any keys can be written. -/
theorem tagTokens?_indexText {base : Char} (hbase : base ∈ wholeNames)
    (keys : List (List Char)) :
    Scope.tagTokens? (spaced (indexText base keys)) = some (indexTokens [base] keys) := by
  have hfirst : ∀ c ∈ (indexText base keys).head?, isBlank c = false := by
    intro c hc
    obtain rfl := Option.some.inj hc
    decide
  have hlast : ∀ c ∈ (indexText base keys).getLast?, isBlank c = false := by
    intro c hc
    have hends : c = base ∨ c = '"' := by
      rcases List.eq_nil_or_concat keys with rfl | ⟨front, key, rfl⟩
      · exact .inl (by simpa [indexText, keysText] using hc.symm)
      · exact .inr (by simpa [indexText, keysText, List.getLast?_cons] using hc.symm)
    have hblank : ∀ d ∈ wholeNames, isBlank d = false := by decide
    rcases hends with rfl | rfl
    · exact hblank _ hbase
    · decide
  have hword : lexeme? (indexText base keys)
      = some ([.word indexWord], ' ' :: base :: keysText keys) := rfl
  have hblank : lexeme? (' ' :: base :: keysText keys) = some ([], base :: keysText keys) := rfl
  have hbase : lexeme? (base :: keysText keys) = some ([.word [base]], keysText keys) := by
    rcases List.mem_cons.1 hbase with rfl | hbase
    · cases keys <;> rfl
    · obtain rfl := List.mem_singleton.1 hbase
      cases keys <;> rfl
  rw [Scope.tagTokens?_spaced, trim_spaced hfirst hlast, scan?_of_lexeme? hword,
    scan?_of_lexeme? hblank, scan?_of_lexeme? hbase, scan?_keysText]
  rfl

theorem contains_braces_indexText {base : Char} (hbase : base ∈ wholeNames)
    (keys : List (List Char)) : contains ['}', '}'] (indexText base keys) = false := by
  have hne : ∀ d ∈ wholeNames, d ≠ '}' := by decide
  rw [indexText, contains_braces_append (by decide), contains_braces_of_ne (by decide),
    contains_braces_of_ne (hne base hbase), contains_braces_keysText]

/-! ### Keys are looked up by a path -/

/-- The name that a chain of keys starts with, and the keys behind it: a first key that is an
identifier is a name of its own. -/
def chain : List (List Char) → List Char × List (List Char)
  | [] => (root, [])
  | key :: keys => if isIdentifier key then (key, keys) else (root, key :: keys)

/-- Keys as a reference. -/
def writtenPath (keys : List (List Char)) : List Char :=
  (chain keys).1 ++ (chain keys).2.flatMap bracketed

/-- The dotted path that the reference is looked up by. -/
def dottedPath (keys : List (List Char)) : List Char :=
  (chain keys).1 ++ (chain keys).2.flatMap quotedPart

namespace Scope

variable {s : Scope} {base : List Char} {keys : List (List Char)}

/-- What stands for the whole namespace: a dollar sign, and a dot outside all loops. -/
inductive WritesNamespace (s : Scope) : List Char → Prop where
  | dollar : WritesNamespace s ['$']
  | dot (h : s.dot? = none) : WritesNamespace s ['.']

theorem WritesNamespace.word? (h : s.WritesNamespace base) : s.word? base = some root := by
  cases h with
  | dollar => rfl
  | dot hdot =>
    show some (s.dot?.getD root) = some root
    rw [hdot]
    rfl

/-- Operands are read one by one. -/
theorem readStages_strs (stages : List Stage) (keys : List (List Char)) :
    ∀ (fuel : Nat) (stage : Stage), keys.length < fuel →
      readStages fuel stages stage (keys.map .str)
        = some (((stage.reverse ++ keys.map .str) :: stages).reverse, []) := by
  induction keys with
  | nil =>
    intro fuel stage hfuel
    obtain ⟨fuel, rfl⟩ := Nat.exists_eq_succ_of_ne_zero (Nat.ne_zero_of_lt hfuel)
    rw [List.map_nil, List.map_nil, List.append_nil]
    rfl
  | cons key keys ih =>
    intro fuel stage hfuel
    obtain ⟨fuel, rfl⟩ := Nat.exists_eq_succ_of_ne_zero (Nat.ne_zero_of_lt hfuel)
    show readStages fuel stages (.str key :: stage) (keys.map .str) = _
    rw [ih fuel (.str key :: stage) (Nat.lt_of_succ_lt_succ hfuel)]
    simp

theorem readPipeline?_index (base : List Char) (keys : List (List Char)) :
    readPipeline? (indexTokens base keys)
      = some [.word indexWord :: .word base :: keys.map .str] := by
  have hread := readStages_strs [] keys (keys.length + 1) [.word base, .word indexWord]
    (Nat.lt_succ_self _)
  have hlength : (indexTokens base keys).length + 1 = keys.length + 1 + 2 := by
    simp [indexTokens]
  have hwords : readStages (keys.length + 1 + 2) [] [] (indexTokens base keys)
      = readStages (keys.length + 1) [] [.word base, .word indexWord] (keys.map .str) := rfl
  rw [readPipeline?, hlength, hwords, hread]
  rfl

theorem literal?_of_readable {key : List Char} (h : Readable key) :
    literal? key = some (quoteOf key :: (key ++ [quoteOf key])) := by
  have hnot := h.quoteOf_not_mem
  unfold quoteOf at hnot ⊢
  split at hnot
  · next hmem => simp [literal?, Action.quotes, hmem, hnot]
  · next hmem => simp [literal?, Action.quotes, hmem]

/-- A key that holds all three quotes has no literal. -/
theorem literal?_eq_none {key : List Char} (h : ∀ q ∈ Action.quotes, q ∈ key) :
    literal? key = none := by
  rw [literal?, List.find?_eq_none.2 fun q hq => by simpa using h q hq]
  rfl

/-- Behind a name every key is a subscript. -/
theorem foldlM_subscript? (hbase : base ≠ root) (hkeys : ∀ key ∈ keys, Readable key) :
    (keys.map Term.str).foldlM s.subscript? base = some (base ++ keys.flatMap bracketed) := by
  induction keys generalizing base with
  | nil => exact congrArg some (List.append_nil base).symm
  | cons key keys ih =>
    have hbracket : base ++ bracketed key ≠ root := by
      intro he
      have hmem : '[' ∈ root := he ▸ List.mem_append_right _ List.mem_cons_self
      exact absurd hmem (by decide)
    have hkey : s.subscript? base (.str key) = some (base ++ bracketed key) := by
      rw [subscript?, if_neg fun h => hbase h.1,
        literal?_of_readable (hkeys key List.mem_cons_self)]
      simp [bracketed]
    rw [List.map_cons, List.foldlM_cons, hkey]
    show (keys.map Term.str).foldlM s.subscript? (base ++ bracketed key) = _
    rw [ih hbracket fun other hmem => hkeys other (List.mem_cons_of_mem _ hmem),
      List.flatMap_cons, List.append_assoc]

/-- In the namespace a first key that is an identifier is the name itself. -/
theorem foldlM_subscript?_root (hkeys : ∀ key ∈ keys, Readable key)
    (hroot : keys.head? ≠ some root) :
    (keys.map Term.str).foldlM s.subscript? root = some (writtenPath keys) := by
  cases keys with
  | nil => rfl
  | cons key keys =>
    have hrest : ∀ other ∈ keys, Readable other :=
      fun other hmem => hkeys other (List.mem_cons_of_mem _ hmem)
    rw [List.map_cons, List.foldlM_cons, writtenPath, chain]
    by_cases hname : isIdentifier key = true
    · have hkey : s.subscript? root (.str key) = some key := if_pos ⟨rfl, hname⟩
      rw [hkey, if_pos hname]
      exact foldlM_subscript? (fun he => hroot (congrArg some he)) hrest
    · have hkey : s.subscript? root (.str key) = some (root ++ bracketed key) := by
        rw [subscript?, if_neg fun h => hname h.2,
          literal?_of_readable (hkeys key List.mem_cons_self)]
        simp [bracketed]
      have hbracket : root ++ bracketed key ≠ root := by
        simp [bracketed]
      rw [hkey, if_neg hname]
      show (keys.map Term.str).foldlM s.subscript? (root ++ bracketed key) = _
      rw [foldlM_subscript? hbracket hrest, List.flatMap_cons, List.append_assoc]

/-- A key without a literal is no subscript. -/
theorem foldlM_subscript?_eq_none {key : List Char} (hkey : key ∈ keys)
    (hquotes : ∀ q ∈ Action.quotes, q ∈ key) (base : List Char) :
    (keys.map Term.str).foldlM s.subscript? base = none := by
  induction keys generalizing base with
  | nil => exact absurd hkey List.not_mem_nil
  | cons first keys ih =>
    rw [List.map_cons, List.foldlM_cons]
    rcases List.mem_cons.1 hkey with rfl | hkey
    · have hname : isIdentifier key ≠ true := fun hname =>
        not_mem_of_all (all_of_isIdentifier hname) rfl (hquotes '"' (by decide))
      rw [subscript?, if_neg fun h => hname h.2, literal?_eq_none hquotes]
      rfl
    · cases s.subscript? base (.str first) with
      | none => rfl
      | some next => exact ih hkey next

/-- What the action becomes is decided by its keys. -/
theorem body?_indexTokens (s : Scope) (base : List Char) (keys : List (List Char)) :
    s.body? (indexTokens base keys)
      = (s.index? (.word base :: keys.map .str)).map fun text => (.expression text, s) := by
  have hpipeline :
      s.pipeline? (indexTokens base keys) = s.index? (.word base :: keys.map .str) := by
    rw [Scope.pipeline?, readPipeline?_index, Option.bind_some, Scope.stages?]
    show (s.index? (.word base :: keys.map .str)).bind _ = _
    cases s.index? (.word base :: keys.map .str) <;> rfl
  show (s.pipeline? (indexTokens base keys)).map _ = _
  rw [hpipeline]

/-- The action is a reference. -/
theorem body?_index (hbase : s.WritesNamespace base) (hne : keys ≠ [])
    (hkeys : ∀ key ∈ keys, Readable key) (hroot : keys.head? ≠ some root) :
    s.body? (indexTokens base keys) = some (.expression (writtenPath keys), s) := by
  have hindex : s.index? (.word base :: keys.map .str) = some (writtenPath keys) := by
    cases keys with
    | nil => exact absurd rfl hne
    | cons key keys =>
      show (s.word? base).bind
        (fun base => ((key :: keys).map Term.str).foldlM s.subscript? base) = _
      rw [hbase.word?, Option.bind_some, foldlM_subscript?_root hkeys hroot]
  rw [body?_indexTokens, hindex]
  rfl

/-- A tag with a key that has no literal is left alone. -/
theorem tag?_index_eq_none {tag key : List Char}
    (htokens : tagTokens? tag = some (indexTokens base keys)) (hkey : key ∈ keys)
    (hquotes : ∀ q ∈ Action.quotes, q ∈ key) : s.tag? tag = none := by
  have hindex : s.index? (.word base :: keys.map .str) = none := by
    cases keys with
    | nil => rfl
    | cons first keys =>
      show (s.word? base).bind
        (fun base => ((first :: keys).map Term.str).foldlM s.subscript? base) = none
      exact Option.bind_eq_none_iff.2 fun name _ => foldlM_subscript?_eq_none hkey hquotes name
  rw [Option.eq_none_iff_forall_ne_some]
  rintro ⟨text, s'⟩ htag
  obtain ⟨body, left, right, hbody, -⟩ := body?_of_tag? htokens htag
  rw [body?_indexTokens, hindex] at hbody
  cases hbody

end Scope

/-! ### Keys that lead to what is held under them -/

/-- Keys that are found as they are when they are written between brackets, and whose first one
means nothing else as a name: it does not start with a truth value, and it is not the name of the
whole namespace.  On its own it is neither the negation nor the name of a dump of all variables,
which is not modelled here. -/
structure Reachable (keys : List (List Char)) : Prop where
  ne_nil : keys ≠ []
  readable : ∀ key ∈ keys, Readable key
  bare : ∀ key ∈ keys.head?, isIdentifier key = true → readBool key = none
  ne_root : keys.head? ≠ some root
  ne_not : keys ≠ ["not".toList]
  ne_dump : keys ≠ ["__tera_context".toList]

/-- What is held under keys, each in what is held under the one before. -/
def nested? (keys : List (List Char)) (vars : Namespace) : Option Value :=
  keys.foldlM (fun v key => fieldOf? key v) (.obj vars)

theorem nested?_cons (key : List Char) (keys : List (List Char)) (vars : Namespace) :
    nested? (key :: keys) vars = (Fields.get? (String.ofList key) vars).bind
      (keys.foldlM fun v key => fieldOf? key v) := rfl

theorem stepInto?_of_fieldOf? {key : List Char} {v w : Value} (h : fieldOf? key v = some w) :
    stepInto? v key = some w := by
  cases v with
  | obj fields => exact h
  | _ => cases h

theorem foldlM_stepInto? {keys : List (List Char)} {v w : Value}
    (h : keys.foldlM (fun v key => fieldOf? key v) v = some w) :
    keys.foldlM stepInto? v = some w := by
  induction keys generalizing v with
  | nil => exact h
  | cons key keys ih =>
    rw [List.foldlM_cons] at h ⊢
    obtain ⟨next, hnext, h⟩ := Option.bind_eq_some_iff.1 h
    rw [stepInto?_of_fieldOf? hnext]
    exact ih h

section Chain

variable {keys : List (List Char)}

/-- Either way the chain starts with a name, and the keys behind it are among the keys. -/
theorem isIdentifier_chain (keys : List (List Char)) : isIdentifier (chain keys).1 = true := by
  cases keys with
  | nil => rfl
  | cons key keys =>
    rw [chain]
    split
    · next h => exact h
    · rfl

theorem mem_of_mem_chain {key : List Char} (h : key ∈ (chain keys).2) : key ∈ keys := by
  cases keys with
  | nil => exact h
  | cons first keys =>
    rw [chain] at h
    split at h
    · exact List.mem_cons_of_mem _ h
    · exact h

theorem isReference_bracketed {path : List Char} (hpath : IsReference path)
    (hkeys : ∀ key ∈ keys, Readable key) : IsReference (path ++ keys.flatMap bracketed) := by
  induction keys generalizing path with
  | nil => exact (List.append_nil path).symm ▸ hpath
  | cons key keys ih =>
    have hkey : IsKey (quoteOf key :: (key ++ [quoteOf key])) := by
      have hquote : quoteOf key ∈ Action.quotes := by
        rcases quoteOf_cases key with hq | hq <;> rw [hq] <;> decide
      have hnot := (hkeys key List.mem_cons_self).quoteOf_not_mem
      exact .inr ⟨_, hquote, key, by simpa using hnot, rfl⟩
    have hnext := ih (hpath.subscript hkey) fun other hmem =>
      hkeys other (List.mem_cons_of_mem _ hmem)
    simpa [bracketed] using hnext

theorem not_mem_loopStates_dottedPath (keys : List (List Char)) :
    String.ofList (dottedPath keys) ∉ loopStates :=
  not_mem_loopStates_quotedParts (isIdentifier_chain keys)

namespace Reachable

theorem readable_chain (h : Reachable keys) : ∀ key ∈ (chain keys).2, Readable key :=
  fun key hkey => h.readable key (mem_of_mem_chain hkey)

theorem isReference (h : Reachable keys) : IsReference (writtenPath keys) :=
  isReference_bracketed (.of_isPath (isPath_of_isIdentifier (isIdentifier_chain keys)))
    h.readable_chain

/-- The name of the chain starts with no truth value. -/
theorem readBool_chain (h : Reachable keys) : readBool (chain keys).1 = none := by
  cases hkeys : keys with
  | nil => exact absurd hkeys h.ne_nil
  | cons key rest =>
    rw [chain]
    split
    · next hname => exact h.bare key (hkeys ▸ rfl) hname
    · rfl

/-- The reference is read as one. -/
theorem kept (h : Reachable keys) : (Form.ref (writtenPath keys)).Kept = true := by
  have hhead : ∀ d ∈ ((chain keys).2.flatMap bracketed).head?, d = '[' := by
    intro d hd
    cases hrest : (chain keys).2 with
    | nil =>
      rw [hrest] at hd
      cases hd
    | cons key rest =>
      rw [hrest] at hd
      exact (Option.some.inj hd).symm
  have hbool : readBool (writtenPath keys) = none :=
    readBool_append_of_head (fun d hd => hhead d hd ▸ rfl) h.readBool_chain
  have hnot : writtenPath keys ≠ "not".toList := by
    intro he
    cases hkeys : keys with
    | nil => exact h.ne_nil hkeys
    | cons key rest =>
      rw [hkeys, writtenPath, chain] at he
      split at he
      · cases rest with
        | nil =>
          rw [List.flatMap_nil, List.append_nil] at he
          exact h.ne_not (hkeys.trans (congrArg (fun key => [key]) he))
        | cons next rest =>
          have hmem : '[' ∈ "not".toList :=
            he ▸ List.mem_append_right _ List.mem_cons_self
          exact absurd hmem (by decide)
      · cases he
  exact Bool.and_eq_true_iff.2 ⟨Option.isNone_iff_eq_none.2 hbool, bne_iff_ne.2 hnot⟩

/-- The dotted path leads from the namespace to what is held under the keys. -/
theorem findDeclared? (h : Reachable keys) {vars : Namespace} {v : Value}
    (hv : nested? keys vars = some v) :
    Template.findDeclared? (Fields.insert (String.ofList root) (.obj vars) vars) (dottedPath keys)
      = some v := by
  rw [dottedPath, findDeclared?_quotedParts (isIdentifier_chain keys) h.readable_chain]
  cases hkeys : keys with
  | nil => exact absurd hkeys h.ne_nil
  | cons key rest =>
    rw [chain]
    split
    · have hroot : String.ofList key ≠ String.ofList root := fun he =>
        h.ne_root (hkeys ▸ congrArg some (String.ofList_injective he))
      rw [hkeys, nested?_cons] at hv
      obtain ⟨w, hw, hv⟩ := Option.bind_eq_some_iff.1 hv
      dsimp only
      rw [Fields.get?_insert_of_ne _ _ hroot, hw]
      exact foldlM_stepInto? hv
    · rw [Fields.get?_insert_self]
      exact foldlM_stepInto? (hkeys ▸ hv)

theorem lookup?_eq (h : Reachable keys) (ns : Namespace) (fs : Frames) :
    fs.lookup? ns (writtenPath keys) = fs.find? ns (dottedPath keys) :=
  lookup?_bracketed (all_of_isIdentifier (isIdentifier_chain keys)) h.readable_chain ns fs

theorem find?_of_free (h : Reachable keys) {vars : Namespace} {v : Value} {fs : Frames}
    (hfree : ∀ f ∈ fs, f.Free (dottedPath keys)) (hv : nested? keys vars = some v) :
    fs.find? (Fields.insert (String.ofList root) (.obj vars) vars) (dottedPath keys) = some v := by
  rw [Action.find?_of_free (not_mem_loopStates_dottedPath keys) _ fs hfree, h.findDeclared? hv]

end Reachable

end Chain

/-- A tag shows what is held under keys wherever a template reaches it: it is read as one part,
whatever stands behind it, and unless its name is bound on the way the part shows the value. -/
def ShowsNested (keys : List (List Char)) (text : List Char) : Prop :=
  ∀ rest : List Char, ∃ node : Node, readDisplay (text ++ rest) = some (node, rest) ∧
    ∀ (c : Context) (vars : Namespace) (nodes : List Node) (fs gs : Frames) (v : Value),
      c.vars = Fields.insert (String.ofList root) (.obj vars) vars →
        (∀ f ∈ fs, f.Free (dottedPath keys)) → Visits c nodes fs node gs →
          Spared (dottedPath keys) (boundIn nodes) → nested? keys vars = some v →
            renderNode c node gs = some (v.shown.toList, gs, .next)

/-- **A reference of reachable keys shows what is held under them.** -/
theorem Reachable.showsNested {keys : List (List Char)} (h : Reachable keys) (left right : Bool) :
    ShowsNested keys ((TagBody.expression (writtenPath keys)).text left right) := by
  intro rest
  refine ⟨_, readDisplay_of_reference h.isReference h.kept left right rest, ?_⟩
  intro c vars nodes fs gs v hvars hfree hvisits hspared hv
  have hfound : gs.lookup? c.vars (writtenPath keys) = some v := by
    rw [h.lookup?_eq, find?_of_visits hvisits hspared (not_mem_loopStates_dottedPath keys), hvars]
    exact h.find?_of_free hfree hv
  exact renderNode_of_lookup hfound _

end Runbook.Template.Action

namespace Runbook.Template

open Runbook.Text Runbook.Template.Action

/-! ### Texts with keys -/

/-- A tag that looks up keys, with the value under the keys and the text behind the tag. -/
structure KeyTag where
  inner : List Char
  keys : List (List Char)
  value : Value
  behind : List Char

namespace KeyTag

/-- The tag as it is written. -/
def written (t : KeyTag) : List Char :=
  spaced t.inner ++ t.behind

/-- The tag with its value. -/
def filled (t : KeyTag) : List Char :=
  t.value.shown.toList ++ t.behind

/-- A tag that ends at its own braces and looks up reachable keys, which the namespace holds a value
under, in front of a text without opening braces. -/
structure Bound (vars : Namespace) (t : KeyTag) : Prop where
  single : contains ['}', '}'] t.inner = false
  tokens : ∃ base ∈ wholeNames, Scope.tagTokens? (spaced t.inner) = some (indexTokens [base] t.keys)
  reachable : Reachable t.keys
  value : nested? t.keys vars = some t.value
  plain : '{' ∉ t.behind

/-- The slot of the tag. -/
def slot (t : KeyTag) : Slot where
  inner := t.inner
  path := writtenPath t.keys
  value := t.value
  behind := t.behind

theorem Bound.shows {vars : Namespace} {t : KeyTag} (h : t.Bound vars)
    (filters : List (List Char)) : t.slot.Shows filters vars where
  single := h.single
  becomes := by
    obtain ⟨base, hbase, htokens⟩ := h.tokens
    have hwrites : ({ filters } : Scope).WritesNamespace [base] := by
      rcases List.mem_cons.1 hbase with rfl | hbase
      · exact .dot rfl
      · rw [List.mem_singleton.1 hbase]
        exact .dollar
    exact Scope.tag?_spaced htokens
      (Scope.body?_index hwrites h.reachable.ne_nil h.reachable.readable h.reachable.ne_root)
  reference := h.reachable.isReference
  kept := h.reachable.kept
  found := (h.reachable.lookup?_eq _ _).trans <|
    h.reachable.find?_of_free (fun f hf => List.mem_singleton.1 hf ▸ Frame.free_default _) h.value
  plain := h.plain

end KeyTag

/-- **An index shows what is held under its keys.**  The tag becomes one that shows the value
wherever it is reached, and is left alone if a key holds all three quotes; any keys can be written;
and a text with such tags, outside all blocks, is filled in with the values. -/
theorem index_shows_nested_value :
    (∀ (s : Scope) (base : List Char) (keys : List (List Char)) (tag : List Char),
      s.WritesNamespace base → Scope.tagTokens? tag = some (indexTokens base keys) →
        Reachable keys → ∃ text, s.tag? tag = some (text, s) ∧ ShowsNested keys text) ∧
    (∀ (s : Scope) (base : List Char) (keys : List (List Char)) (tag key : List Char),
      Scope.tagTokens? tag = some (indexTokens base keys) → key ∈ keys →
        (∀ q ∈ Action.quotes, q ∈ key) → s.tag? tag = none) ∧
    (∀ base ∈ wholeNames, ∀ keys : List (List Char),
      contains ['}', '}'] (indexText base keys) = false ∧
        Scope.tagTokens? (spaced (indexText base keys)) = some (indexTokens [base] keys)) ∧
    ∀ (functions : ValueFunctions) (vars : Namespace) (front : List Char) (tags : List KeyTag),
      '{' ∉ front → (∀ t ∈ tags, t.Bound vars) →
        interpolate functions vars (String.ofList (front ++ tags.flatMap KeyTag.written))
          = String.ofList (front ++ tags.flatMap KeyTag.filled) := by
  refine ⟨fun s base keys tag hbase htokens h => ?_,
    fun s base keys tag key htokens hkey hquotes => ?_, fun base hbase keys => ?_,
    fun functions vars front tags hfront hbound => ?_⟩
  · obtain ⟨left, right, htag⟩ := Scope.exists_tag?_of_body? htokens
      (Scope.body?_index hbase h.ne_nil h.readable h.ne_root)
    exact ⟨_, htag, h.showsNested left right⟩
  · exact Scope.tag?_index_eq_none htokens hkey hquotes
  · exact ⟨contains_braces_indexText hbase keys, tagTokens?_indexText hbase keys⟩
  · have hshows : ∀ t ∈ tags, t.slot.Shows (callable functions) vars :=
      fun t ht => (hbound t ht).shows _
    have htext := interpolate_of_items functions hfront hshows
    exact htext

/-- The open ports of a host by its address. -/
def portKeys : List (List Char) := ["10.0.0.1".toList, "ports/open".toList]

def portNamespace : Namespace := [("10.0.0.1", .obj [("ports/open", .str "\x7b\x7b .x \x7d\x7d")])]

/-- A tag for the ports, which stands outside all loops. -/
def portTag : KeyTag where
  inner := indexText '.' portKeys
  keys := portKeys
  value := .str "\x7b\x7b .x \x7d\x7d"
  behind := " are open".toList

/-- The ports are shown in the text, and inside a loop the tag with a dollar sign shows them.  A tag
whose key is made of the three quotes stays. -/
theorem index_shows_nested_value_of_ports :
    Reachable portKeys ∧ portTag.Bound portNamespace ∧
    String.ofList portTag.written
      = "\x7b\x7b index . \"10.0.0.1\" \"ports/open\" \x7d\x7d are open" ∧
    interpolate [] portNamespace
        "\x7b\x7b index . \"10.0.0.1\" \"ports/open\" \x7d\x7d are open"
      = "\x7b\x7b .x \x7d\x7d are open" ∧
    (∃ text, ({ filters := [], blocks := [.loop "host".toList] } : Scope).tag?
        (spaced (indexText '$' portKeys))
        = some (text, { filters := [], blocks := [.loop "host".toList] }) ∧
      ShowsNested portKeys text) ∧
    ({ filters := [] } : Scope).tag? (spaced (indexText '.' [Action.quotes])) = none := by
  have hreadable : ∀ key ∈ portKeys, Readable key := by
    intro key hkey
    rcases List.mem_cons.1 hkey with rfl | hkey
    · exact ⟨by decide, by decide, by decide, by decide, by decide, by decide, by decide⟩
    · rw [List.mem_singleton.1 hkey]
      exact ⟨by decide, by decide, by decide, by decide, by decide, by decide, by decide⟩
  have hreachable : Reachable portKeys :=
    ⟨by decide, hreadable, by decide, by decide, by decide, by decide⟩
  obtain ⟨htag, hleft, hwritten, htext⟩ := index_shows_nested_value
  have hdot := hwritten '.' (by decide) portKeys
  have hbound : portTag.Bound portNamespace :=
    ⟨hdot.1, ⟨'.', by decide, hdot.2⟩, hreachable, by cbv, by decide⟩
  have hshown : String.ofList portTag.written
      = "\x7b\x7b index . \"10.0.0.1\" \"ports/open\" \x7d\x7d are open" := by decide +kernel
  refine ⟨hreachable, hbound, hshown, ?_, ?_, ?_⟩
  · have hone : [] ++ [portTag].flatMap KeyTag.written = portTag.written := by simp
    calc interpolate [] portNamespace
          "\x7b\x7b index . \"10.0.0.1\" \"ports/open\" \x7d\x7d are open"
        = interpolate [] portNamespace
            (String.ofList ([] ++ [portTag].flatMap KeyTag.written)) := by rw [hone, hshown]
      _ = String.ofList ([] ++ [portTag].flatMap KeyTag.filled) :=
          htext [] portNamespace [] [portTag] (by decide)
            fun t ht => List.mem_singleton.1 ht ▸ hbound
      _ = "\x7b\x7b .x \x7d\x7d are open" := by decide +kernel
  · exact htag _ _ _ _ .dollar (hwritten '$' (by decide) portKeys).2 hreachable
  · exact hleft _ _ _ _ Action.quotes (hwritten '.' (by decide) _).2 List.mem_cons_self
      fun q hq => hq

/-- Not every key is found: one that holds all three quotes has no literal. -/
theorem index_misses_keys :
    ¬ ∀ (vars : Namespace) (key inner : List Char) (v : Value),
      contains ['}', '}'] inner = false →
        Scope.tagTokens? (spaced inner) = some (indexTokens ['.'] [key]) →
          Fields.get? (String.ofList key) vars = some v →
            interpolate [] vars (String.ofList (spaced inner)) = v.shown := by
  intro hclaim
  have hkey := hclaim [(String.ofList Action.quotes, .str "v")] Action.quotes
    (indexText '.' [Action.quotes]) (.str "v")
    (contains_braces_indexText (by decide) _) (tagTokens?_indexText (by decide) _) (by cbv)
  have hrun : interpolate [] [(String.ofList Action.quotes, .str "v")]
      (String.ofList (spaced (indexText '.' [Action.quotes])))
        = String.ofList (spaced (indexText '.' [Action.quotes])) := by decide +kernel
  exact absurd (hrun.symm.trans hkey) (by decide +kernel)

end Runbook.Template
