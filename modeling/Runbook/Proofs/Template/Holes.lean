import Runbook.Proofs.Template.Literals
import Runbook.Proofs.Template.StringTokens
/-!
# Strings as operands

Where a string of an action stands in the pipeline that the action is read as.  The parser never
looks into a string, so the place is the same for all strings.

* `Hole`, `Hole.plug` — a place among the operands of a pipeline, and the pipeline with a string at
  it; `Hole.front` — the operands in front of it in its own stage;
* `readStages_attach` — stages are read the same whatever was read in front of them;
* `readStages_string`, `readPipeline?_string` — tokens with a string among them are read as a hole
  that is filled, for all strings or for none;
* `PlainStages` — numerals without quotes; `plain_of_readPipeline?` — all that is read is plain;
* `Scope.stringBody` — what a tag with a string among its tokens becomes is a fixed text around that
  of a pipeline with the string, for all strings or for none.
-/

namespace Runbook.Template.Action

open Runbook.Text

/-! ### Holes -/

/-- A place among the operands of a pipeline: in one of its stages, or in a group of one. -/
inductive Hole where
  | here (before : Pipeline) (front back : Stage) (after : Pipeline)
  | within (before : Pipeline) (front : Stage) (inner : Hole) (back : Stage) (after : Pipeline)

namespace Hole

/-- The pipeline with a string in its hole. -/
def plug (s : List Char) : Hole → Pipeline
  | here before front back after => before ++ (front ++ .str s :: back) :: after
  | within before front inner back after =>
    before ++ (front ++ .group (inner.plug s) :: back) :: after

/-- The operands in front of the hole in the stage that it is in. -/
def front : Hole → Stage
  | here _ front _ _ => front
  | within _ _ inner _ _ => inner.front

end Hole

/-! ### Reading stages -/

/-- Stages behind those that were read, the first one behind the terms of the current one. -/
def attach (stages : List Stage) (stage : Stage) : Pipeline → Pipeline
  | [] => []
  | first :: more => stages.reverse ++ (stage.reverse ++ first) :: more

theorem attach_attach_bar (stages : List Stage) (stage : Stage) (p : Pipeline) :
    attach stages stage (attach [[]] [] p) = attach (stage.reverse :: stages) [] p := by
  cases p <;> simp [attach]

theorem attach_attach_term (stages : List Stage) (stage : Stage) (t : Term) (p : Pipeline) :
    attach stages stage (attach [] [t] p) = attach stages (t :: stage) p := by
  cases p <;> simp [attach]

/-- Stages are read the same whatever was read in front of them. -/
theorem readStages_attach (fuel : Nat) (stages : List Stage) (stage : Stage)
    (tokens : List Token) : readStages fuel stages stage tokens
      = (readStages fuel [] [] tokens).map fun r => (attach stages stage r.1, r.2) := by
  induction fuel generalizing stages stage tokens with
  | zero => rfl
  | succ fuel ih =>
    have hterm : ∀ (t : Term) (rest : List Token),
        readStages fuel stages (t :: stage) rest
          = (readStages fuel [] [t] rest).map fun r => (attach stages stage r.1, r.2) := by
      intro t rest
      rw [ih, ih [] [t], Option.map_map]
      congr 1
      funext r
      exact congrArg (·, r.2) (attach_attach_term stages stage t r.1).symm
    cases tokens with
    | nil => simp [readStages, attach]
    | cons token rest =>
      cases token with
      | str s => exact hterm _ rest
      | num n => exact hterm _ rest
      | word w => exact hterm _ rest
      | bar =>
        show readStages fuel (stage.reverse :: stages) [] rest
          = (readStages fuel [[]] [] rest).map _
        rw [ih, ih [[]] [], Option.map_map]
        congr 1
        funext r
        exact congrArg (·, r.2) (attach_attach_bar stages stage r.1).symm
      | closed => simp [readStages, attach]
      | comma => rfl
      | declare => rfl
      | opened =>
        simp only [readStages]
        split
        · exact hterm _ _
        · rfl

/-- At least one stage is read. -/
theorem readStages_ne_nil {fuel : Nat} {stages : List Stage} {stage : Stage}
    {tokens rest : List Token} (h : readStages fuel stages stage tokens = some ([], rest)) :
    False := by
  induction fuel generalizing stages stage tokens with
  | zero => cases h
  | succ fuel ih =>
    cases tokens with
    | nil => simp [readStages] at h
    | cons token more =>
      cases token with
      | str s => exact ih h
      | num n => exact ih h
      | word w => exact ih h
      | bar => exact ih h
      | closed => simp [readStages] at h
      | comma => cases h
      | declare => cases h
      | opened =>
        simp only [readStages] at h
        split at h
        · exact ih h
        · cases h

/-- A term is kept where it was read, and nothing else depends on it. -/
theorem readStages_term (fuel : Nat) (stages : List Stage) (stage : Stage) (tokens : List Token) :
    (∀ t, readStages fuel stages (t :: stage) tokens = none) ∨
      ∃ back after rest, ∀ t, readStages fuel stages (t :: stage) tokens
        = some (stages.reverse ++ (stage.reverse ++ t :: back) :: after, rest) := by
  cases hread : readStages fuel [] [] tokens with
  | none => exact .inl fun t => by rw [readStages_attach, hread]; rfl
  | some r =>
    obtain ⟨p, rest⟩ := r
    cases p with
    | nil => exact (readStages_ne_nil hread).elim
    | cons back after =>
      refine .inr ⟨back, after, rest, fun t => ?_⟩
      rw [readStages_attach, hread]
      simp [attach]

/-! ### A string among the tokens -/

/-- The token of an operand that is no group. -/
def Term.token? : Term → Option Token
  | .str s => some (.str s)
  | .num n => some (.num n)
  | .word w => some (.word w)
  | .group _ => none

/-- Tokens in a pipeline behind which a stage starts. -/
def BehindMark (tokens : List Token) : Prop :=
  ∃ lead, ∃ mark ∈ [Token.opened, .bar], tokens = lead ++ [mark]

/-- Whether tokens end with the operands of a stage, unless there is a group among these. -/
def EndsWith (tokens : List Token) (stage : Stage) : Prop :=
  ∀ operands, stage.mapM Term.token? = some operands →
    ∃ lead, (lead = [] ∨ BehindMark lead) ∧ tokens = lead ++ operands

/-- A stage starts with no operands. -/
theorem endsWith_nil {tokens : List Token} (h : tokens = [] ∨ BehindMark tokens) :
    EndsWith tokens [] := by
  intro operands hmap
  cases hmap
  exact ⟨tokens, h, (List.append_nil tokens).symm⟩

theorem EndsWith.snoc {tokens : List Token} {stage : Stage} (h : EndsWith tokens stage) {t : Term}
    {token : Token} (ht : t.token? = some token) :
    EndsWith (tokens ++ [token]) (stage ++ [t]) := by
  intro operands hmap
  rw [List.mapM_append] at hmap
  obtain ⟨front, hfront, hmap⟩ := Option.bind_eq_some_iff.1 hmap
  obtain ⟨last, hlast, hmap⟩ := Option.bind_eq_some_iff.1 hmap
  have hone : [t].mapM Term.token? = some [token] := by
    rw [List.mapM_cons, ht]
    rfl
  rw [hone] at hlast
  cases hlast
  cases hmap
  obtain ⟨lead, hlead, rfl⟩ := h front hfront
  exact ⟨lead, hlead, List.append_assoc _ _ _⟩

/-- A group is no token. -/
theorem endsWith_group (tokens : List Token) (stage : Stage) (p : Pipeline) :
    EndsWith tokens (stage ++ [.group p]) := by
  intro operands hmap
  rw [List.mapM_append] at hmap
  obtain ⟨front, hfront, hmap⟩ := Option.bind_eq_some_iff.1 hmap
  obtain ⟨last, hlast, hmap⟩ := Option.bind_eq_some_iff.1 hmap
  cases hlast

/-- What comes of stages with a string among their tokens: nothing; a pipeline with the string in a
hole; or a group that was closed in front of the string. -/
inductive StringRead (passed front after : List Token)
    (read : List Char → Option (Pipeline × List Token)) : Prop where
  | refused (h : ∀ s, read s = none)
  | filled (hole : Hole) (rest : List Token) (hends : EndsWith (passed ++ front) hole.front)
    (h : ∀ s, read s = some (hole.plug s, rest))
  | stopped (p : Pipeline) (inside more : List Token) (hfront : front = inside ++ .closed :: more)
    (h : ∀ s, read s = some (p, .closed :: (more ++ .str s :: after)))

/-- One more token in front. -/
theorem StringRead.cons {passed front after : List Token} {token : Token}
    {read : List Char → Option (Pipeline × List Token)}
    (h : StringRead (passed ++ [token]) front after read) :
    StringRead passed (token :: front) after read := by
  cases h with
  | refused h => exact .refused h
  | filled hole rest hends h =>
    refine .filled hole rest ?_ h
    rwa [List.append_assoc] at hends
  | stopped p inside more hfront h =>
    exact .stopped p (token :: inside) more (congrArg (token :: ·) hfront) h

/-- A group among the tokens: the string is in the group, or behind it, or the group is not closed.
`hreads` is what is known of the tokens behind the group. -/
theorem readStages_opened {after : List Token} {fuel : Nat}
    (hreads : ∀ passed front stages stage, EndsWith passed stage.reverse →
      StringRead passed front after
        fun s => readStages fuel stages stage (front ++ .str s :: after))
    (passed front : List Token) (stages : List Stage) (stage : Stage) :
    StringRead passed (.opened :: front) after
      fun s => readStages (fuel + 1) stages stage (.opened :: front ++ .str s :: after) := by
  have hinner := hreads (passed ++ [.opened]) front [] []
    (endsWith_nil (.inr ⟨passed, .opened, by decide, rfl⟩))
  cases hinner with
  | refused h =>
    refine .refused fun s => ?_
    simp only [List.cons_append, readStages, h s]
  | filled hole rest hinside h =>
    have hpassed : EndsWith (passed ++ .opened :: front) hole.front := by
      rwa [List.append_assoc] at hinside
    cases rest with
    | nil => exact .refused fun s => by simp only [List.cons_append, readStages, h s]
    | cons token rest =>
      by_cases hclosed : token = .closed
      · subst hclosed
        have hread : ∀ s, readStages (fuel + 1) stages stage (.opened :: front ++ .str s :: after)
            = readStages fuel stages (.group (hole.plug s) :: stage) rest := by
          intro s
          simp only [List.cons_append, readStages, h s]
        rcases readStages_term fuel stages stage rest with hnone | ⟨back, more, behind, hsome⟩
        · exact .refused fun s => (hread s).trans (hnone _)
        · exact .filled (.within stages.reverse stage.reverse hole back more) behind hpassed
            fun s => (hread s).trans (hsome _)
      · refine .refused fun s => ?_
        simp only [List.cons_append, readStages, h s]
        cases token with
        | closed => exact absurd rfl hclosed
        | _ => rfl
  | stopped p inside more hfront h =>
    have hread : ∀ s, readStages (fuel + 1) stages stage (.opened :: front ++ .str s :: after)
        = readStages fuel stages (.group p :: stage) (more ++ .str s :: after) := by
      intro s
      simp only [List.cons_append, readStages, h s]
    have hgroup : EndsWith (passed ++ .opened :: inside ++ [.closed])
        (.group p :: stage).reverse := by
      rw [List.reverse_cons]
      exact endsWith_group _ _ _
    have hmore := hreads _ more stages (.group p :: stage) hgroup
    cases hmore with
    | refused h => exact .refused fun s => (hread s).trans (h s)
    | filled hole rest hends h =>
      refine .filled hole rest ?_ fun s => (hread s).trans (h s)
      rw [hfront]
      simpa using hends
    | stopped p' inside' more' hmore h =>
      refine .stopped p' (.opened :: inside ++ .closed :: inside') more' ?_
        fun s => (hread s).trans (h s)
      rw [hfront, hmore]
      simp

/-- Stages with a string among their tokens: by induction on the fuel, over the tokens in front of
the string; those of a stage are the last of the `passed` ones, unless the stage holds a group. -/
theorem readStages_string (after : List Token) (fuel : Nat) (passed front : List Token)
    (stages : List Stage) (stage : Stage) (hends : EndsWith passed stage.reverse) :
    StringRead passed front after
      fun s => readStages fuel stages stage (front ++ .str s :: after) := by
  induction fuel generalizing passed front stages stage with
  | zero => exact .refused fun s => rfl
  | succ fuel ih =>
    cases front with
    | nil =>
      rcases readStages_term fuel stages stage after with hnone | ⟨back, rest, behind, hsome⟩
      · exact .refused fun s => hnone (.str s)
      · refine .filled (.here stages.reverse stage.reverse back rest) behind ?_
          fun s => hsome (.str s)
        rwa [List.append_nil]
    | cons token front =>
      have hterm : ∀ t : Term, t.token? = some token →
          StringRead passed (token :: front) after
            fun s => readStages fuel stages (t :: stage) (front ++ .str s :: after) := by
        intro t ht
        refine (ih (passed ++ [token]) front stages (t :: stage) ?_).cons
        rw [List.reverse_cons]
        exact hends.snoc ht
      cases token with
      | str x => exact hterm (.str x) rfl
      | num n => exact hterm (.num n) rfl
      | word w => exact hterm (.word w) rfl
      | bar =>
        exact (ih (passed ++ [.bar]) front (stage.reverse :: stages) []
          (endsWith_nil (.inr ⟨passed, .bar, by decide, rfl⟩))).cons
      | closed => exact .stopped _ [] front rfl fun s => rfl
      | comma => exact .refused fun s => rfl
      | declare => exact .refused fun s => rfl
      | opened => exact readStages_opened ih passed front stages stage

/-- Tokens with a string among them are read as no pipeline, whatever the string is, or as one with
the string in a hole. -/
theorem readPipeline?_string (front after : List Token) :
    (∀ s, readPipeline? (front ++ .str s :: after) = none) ∨
      ∃ hole : Hole, EndsWith front hole.front ∧
        ∀ s, readPipeline? (front ++ .str s :: after) = some (hole.plug s) := by
  have hlength : ∀ s : List Char,
      (front ++ .str s :: after).length + 1 = front.length + after.length + 2 := by
    intro s
    simp only [List.length_append, List.length_cons]
    omega
  have hread := readStages_string after (front.length + after.length + 2) [] front [] []
    (endsWith_nil (.inl rfl))
  cases hread with
  | refused h => exact .inl fun s => by rw [readPipeline?, hlength, h s]
  | filled hole rest hends h =>
    cases rest with
    | nil => exact .inr ⟨hole, hends, fun s => by rw [readPipeline?, hlength, h s]⟩
    | cons token rest => exact .inl fun s => by rw [readPipeline?, hlength, h s]
  | stopped p inside more hfront h => exact .inl fun s => by rw [readPipeline?, hlength, h s]

/-! ### Numerals -/

mutual

/-- Whether no numeral in a term holds a quote. -/
def Term.Plain : Term → Prop
  | .num n => ∀ c ∈ n, c ∉ quotes
  | .group stages => PlainStages stages
  | .str _ => True
  | .word _ => True
termination_by structural t => t

/-- Whether no numeral in a stage does. -/
def PlainTerms : List Term → Prop
  | [] => True
  | t :: rest => t.Plain ∧ PlainTerms rest
termination_by structural t => t

/-- Whether no numeral in a pipeline does. -/
def PlainStages : List (List Term) → Prop
  | [] => True
  | stage :: rest => PlainTerms stage ∧ PlainStages rest
termination_by structural t => t

end

theorem plainTerms_iff {ts : List Term} : PlainTerms ts ↔ ∀ t ∈ ts, t.Plain := by
  induction ts with
  | nil => exact iff_of_true trivial (fun t ht => absurd ht List.not_mem_nil)
  | cons t rest ih => rw [PlainTerms, ih, List.forall_mem_cons]

theorem plainStages_iff {stages : List (List Term)} :
    PlainStages stages ↔ ∀ stage ∈ stages, PlainTerms stage := by
  induction stages with
  | nil => exact iff_of_true trivial (fun t ht => absurd ht List.not_mem_nil)
  | cons stage rest ih => rw [PlainStages, ih, List.forall_mem_cons]

theorem PlainNumerals.of_cons {token : Token} {tokens : List Token}
    (h : PlainNumerals (token :: tokens)) : PlainNumerals tokens :=
  fun n hn => h n (List.mem_cons_of_mem _ hn)

/-- Plain tokens are read as plain stages, and what is left is plain. -/
theorem plain_of_readStages {fuel : Nat} {stages : List Stage} {stage : Stage}
    {tokens rest : List Token} {p : Pipeline} (htokens : PlainNumerals tokens)
    (hstages : ∀ x ∈ stages, PlainTerms x) (hstage : ∀ t ∈ stage, t.Plain)
    (h : readStages fuel stages stage tokens = some (p, rest)) :
    PlainStages p ∧ PlainNumerals rest := by
  induction fuel generalizing stages stage tokens p rest with
  | zero => cases h
  | succ fuel ih =>
    have hread : ∀ x ∈ stage.reverse :: stages, PlainTerms x :=
      List.forall_mem_cons.2
        ⟨plainTerms_iff.2 fun t ht => hstage t (List.mem_reverse.1 ht), hstages⟩
    have hall : PlainStages (stage.reverse :: stages).reverse :=
      plainStages_iff.2 fun x hx => hread x (List.mem_reverse.1 hx)
    have hterm : ∀ t : Term, t.Plain → ∀ x ∈ t :: stage, x.Plain :=
      fun t ht => List.forall_mem_cons.2 ⟨ht, hstage⟩
    cases tokens with
    | nil =>
      cases h
      exact ⟨hall, htokens⟩
    | cons token more =>
      have hmore := htokens.of_cons
      cases token with
      | str s => exact ih hmore hstages (hterm (.str s) trivial) h
      | num n => exact ih hmore hstages (hterm (.num n) (htokens n List.mem_cons_self)) h
      | word w => exact ih hmore hstages (hterm (.word w) trivial) h
      | bar => exact ih hmore hread (fun t ht => absurd ht List.not_mem_nil) h
      | closed =>
        cases h
        exact ⟨hall, htokens⟩
      | comma => cases h
      | declare => cases h
      | opened =>
        simp only [readStages] at h
        split at h
        · next inner behind hinner =>
          obtain ⟨hplain, hbehind⟩ := ih hmore (fun x hx => absurd hx List.not_mem_nil)
            (fun t ht => absurd ht List.not_mem_nil) hinner
          exact ih hbehind.of_cons hstages (hterm (.group inner) hplain) h
        · cases h

/-- So plain tokens are read as a plain pipeline. -/
theorem plain_of_readPipeline? {tokens : List Token} {p : Pipeline} (htokens : PlainNumerals tokens)
    (h : readPipeline? tokens = some p) : PlainStages p := by
  unfold readPipeline? at h
  split at h
  · next hread =>
    cases h
    exact (plain_of_readStages htokens (fun x hx => absurd hx List.not_mem_nil)
      (fun t ht => absurd ht List.not_mem_nil) hread).1
  · cases h

/-! ### A string in a tag -/

namespace Scope

/-- The tokens of a tag in front of its action: none, a new name, or the words of a block. -/
inductive Opener : List Token → Prop where
  | none : Opener []
  | declare (tokens : List Token) : Opener (tokens ++ [.declare])
  | block {tokens : List Token} (h : tokens ∈ [[.word "if".toList],
    [.word "else".toList, .word "if".toList], [.word "range".toList]]) : Opener tokens

/-- Texts that stand in a tag with nothing in quotes around them. -/
def Wraps (make : List Char → TagBody) : Prop :=
  ∀ left right, ∃ front back, NoLiteral front ∧ NoLiteral back ∧
    ∀ text, (make text).text left right = front ++ (text ++ back)

/-- A text between the braces of a tag, behind others without quotes. -/
theorem exists_delimited {kind : Char} (hkind : kind = '%' ∨ kind = '{') {word : List Char}
    (hword : NoLiteral word) (left right : Bool) :
    ∃ front back, NoLiteral front ∧ NoLiteral back ∧
      ∀ text, delimited kind left right (word ++ text) = front ++ (text ++ back) := by
  refine ⟨(if left then ['{', kind, '-'] else ['{', kind]) ++ [' '] ++ word,
    ' ' :: if right then ['-', if kind = '{' then '}' else kind, '}']
      else [if kind = '{' then '}' else kind, '}'], ?_, ?_, fun text => ?_⟩
  · refine HasLiterals.append (noLiteral_of_all ?_) hword
    rcases hkind with rfl | rfl <;> cases left <;> rfl
  · refine noLiteral_of_all ?_
    rcases hkind with rfl | rfl <;> cases right <;> rfl
  · simp [delimited]

theorem wraps_statement {word : List Char} (hword : NoLiteral word) :
    Wraps fun text => .statement (word ++ text) :=
  exists_delimited (.inl rfl) hword

theorem wraps_expression : Wraps .expression :=
  exists_delimited (.inr rfl) .done

/-- The names of a loop stand in front of a string, or there are none. -/
theorem loopNames?_string (σ : Scope) (before after : List Token) :
    (∀ s, loopNames? σ (before ++ .str s :: after) = none) ∨
      ∃ names lead front, (lead = [] ∨ ∃ more, lead = more ++ [.declare]) ∧
        before = lead ++ front ∧
          ∀ s, loopNames? σ (before ++ .str s :: after)
            = some (names, front ++ .str s :: after) := by
  by_cases hone : ∃ value rest, before = .word value :: .declare :: rest
  · obtain ⟨value, rest, rfl⟩ := hone
    cases hvalue : declared? value with
    | none => exact .inl fun s => congrArg (Option.map _) hvalue
    | some v =>
      exact .inr ⟨[v], [.word value, .declare], rest, .inr ⟨[.word value], rfl⟩, rfl,
        fun s => congrArg (Option.map _) hvalue⟩
  by_cases htwo : ∃ key value rest,
      before = .word key :: .comma :: .word value :: .declare :: rest
  · obtain ⟨key, value, rest, rfl⟩ := htwo
    have hnames : ∀ s, loopNames? σ
        (.word key :: .comma :: .word value :: .declare :: rest ++ .str s :: after)
          = (declared? key).bind fun k => (declared? value).map fun v =>
              ([k, v], rest ++ .str s :: after) := fun s => rfl
    cases hkey : declared? key with
    | none => exact .inl fun s => by rw [hnames, hkey]; rfl
    | some k =>
      cases hvalue : declared? value with
      | none => exact .inl fun s => by rw [hnames, hkey, hvalue]; rfl
      | some v =>
        exact .inr ⟨[k, v], [.word key, .comma, .word value, .declare], rest,
          .inr ⟨[.word key, .comma, .word value], rfl⟩, rfl,
          fun s => by rw [hnames, hkey, hvalue]; rfl⟩
  -- a string is no part of the names, so they do not start to be declared behind it
  refine .inr ⟨["__it".toList ++ (natText (σ.loops + 1)).toList], [], before, .inl rfl, rfl,
    fun s => ?_⟩
  unfold loopNames?
  split
  · next he =>
    rcases before with _ | ⟨t₁, _ | ⟨t₂, rest⟩⟩ <;> cases he
    exact absurd ⟨_, _, rfl⟩ hone
  · next he =>
    rcases before with _ | ⟨t₁, _ | ⟨t₂, _ | ⟨t₃, _ | ⟨t₄, rest⟩⟩⟩⟩ <;> cases he
    exact absurd ⟨_, _, _, rfl⟩ htwo
  · rfl

/-- What a loop writes in front of its collection has no quotes. -/
theorem noLiteral_names {σ : Scope} {tokens rest : List Token} {names : List (List Char)}
    (h : loopNames? σ tokens = some (names, rest)) :
    NoLiteral ("for ".toList ++ joinWith [',', ' '] names ++ " in ".toList) := by
  have hnames : List.Forall₂ HasLiterals names (names.map fun _ => []) := by
    rw [List.forall₂_map_right_iff, List.forall₂_same]
    exact fun name hname => noLiteral_of_isIdentifier (isIdentifier_of_loopNames? h name hname)
  have hsep : NoLiteral [',', ' '] := noLiteral_of_all rfl
  have hjoined := hasLiterals_joinWith hsep hnames
  have hnone : (names.map fun _ => ([] : List (List Char))).flatten = [] := by simp
  rw [hnone] at hjoined
  have hfor : NoLiteral "for ".toList := noLiteral_of_all rfl
  have hin : NoLiteral " in ".toList := noLiteral_of_all rfl
  rw [List.append_assoc]
  exact HasLiterals.between hfor hjoined hin

section Words

variable {σ : Scope} {w : List Char} {rest : List Token}

/-- A first word that opens no block may be declared. -/
theorem body?_of_declare (hopens : ¬ OpensBlock w (.declare :: rest)) :
    σ.body? (.word w :: .declare :: rest) = σ.declare? w rest := by
  unfold body?
  dsimp only
  rw [if_neg fun h => hopens (.inl h), if_neg fun h => List.cons_ne_nil _ _ h.2,
    if_neg fun h => hopens (.inr (.inl h)), if_neg fun h => List.cons_ne_nil _ _ h.2,
    if_neg fun h => hopens (.inr (.inr h))]

/-- Otherwise the tag shows a value, unless the word is reserved. -/
theorem body?_of_shows (hopens : ¬ OpensBlock w rest) (hne : rest ≠ [])
    (hdeclare : ∀ more, rest ≠ .declare :: more) :
    σ.body? (.word w :: rest)
      = if reserved.contains w then none else body?.expression? σ (.word w :: rest) := by
  unfold body?
  dsimp only
  rw [if_neg fun h => hopens (.inl h), if_neg fun h => hne h.2,
    if_neg fun h => hopens (.inr (.inl h)), if_neg fun h => hne h.2,
    if_neg fun h => hopens (.inr (.inr h))]
  split
  · exact absurd rfl (hdeclare _)
  · rfl

end Words

/-- What comes of a tag with a string among its tokens: nothing, or a text around that of the
pipeline that the string is in. -/
def StringBody (σ : Scope) (before after : List Token) : Prop :=
  (∀ s, σ.body? (before ++ .str s :: after) = none) ∨
    ∃ lead front make σ', Opener lead ∧ before = lead ++ front ∧ Wraps make ∧ ∀ s,
      σ.body? (before ++ .str s :: after)
        = (σ.pipeline? (front ++ .str s :: after)).map fun text => (make text, σ')

theorem stringBody_expression {σ : Scope} {before after : List Token}
    (h : ∀ s, σ.body? (before ++ .str s :: after)
      = body?.expression? σ (before ++ .str s :: after)) : StringBody σ before after :=
  .inr ⟨[], before, .expression, σ, .none, rfl, wraps_expression, h⟩

/-- The names of a loop are written in front of its collection. -/
theorem stringBody_range (σ : Scope) (rest after : List Token) :
    StringBody σ (.word "range".toList :: rest) after := by
  have hloop : ∀ s, σ.body? (.word "range".toList :: rest ++ .str s :: after)
      = σ.openLoop? (rest ++ .str s :: after) := fun s => rfl
  rcases loopNames?_string σ rest after with hnone | ⟨names, lead, front, hlead, hfront, hnames⟩
  · exact .inl fun s => by rw [hloop, openLoop?, hnone]; rfl
  · have hbody : ∀ s, σ.body? (.word "range".toList :: rest ++ .str s :: after)
        = (σ.pipeline? (front ++ .str s :: after)).bind fun text => names.getLast?.map fun dot =>
            (.statement ("for ".toList ++ joinWith [',', ' '] names ++ " in ".toList ++ text),
              { σ with blocks := .loop dot :: σ.blocks }) := by
      intro s
      rw [hloop, openLoop?, hnames]
      rfl
    cases hdot : names.getLast? with
    | none => exact .inl fun s => by rw [hbody, hdot]; exact Option.bind_fun_none _
    | some dot =>
      have hopener : Opener (.word "range".toList :: lead) := by
        rcases hlead with rfl | ⟨more, rfl⟩
        · exact .block (by decide)
        · exact .declare (.word "range".toList :: more)
      refine .inr ⟨_, front, _, { σ with blocks := .loop dot :: σ.blocks }, hopener,
        congrArg _ hfront, wraps_statement (noLiteral_names (hnames [])), fun s => ?_⟩
      rw [hbody, hdot]
      cases σ.pipeline? (front ++ .str s :: after) <;> rfl

/-- So is a name that is declared. -/
theorem stringBody_declare {σ : Scope} {w : List Char} {rest after : List Token}
    (hopens : ∀ s, ¬ OpensBlock w (.declare :: rest ++ .str s :: after)) :
    StringBody σ (.word w :: .declare :: rest) after := by
  have hbody : ∀ s, σ.body? (.word w :: .declare :: rest ++ .str s :: after)
      = σ.declare? w (rest ++ .str s :: after) := fun s => body?_of_declare (hopens s)
  cases hname : declared? w with
  | none => exact .inl fun s => by rw [hbody, Scope.declare?, hname]; rfl
  | some name =>
    have hset : NoLiteral ("set ".toList ++ name ++ " = ".toList) := by
      have hbefore : NoLiteral "set ".toList := noLiteral_of_all rfl
      have hafter : NoLiteral " = ".toList := noLiteral_of_all rfl
      rw [List.append_assoc]
      exact HasLiterals.between hbefore
        (noLiteral_of_isIdentifier (isIdentifier_of_declared? hname)) hafter
    refine .inr ⟨[.word w, .declare], rest, _, σ, .declare [.word w], rfl, wraps_statement hset,
      fun s => ?_⟩
    rw [hbody, Scope.declare?, hname]
    rfl

/-- A further branch is one of the innermost condition. -/
theorem stringBody_elseIf (σ : Scope) (more after : List Token) :
    StringBody σ (.word "else".toList :: .word "if".toList :: more) after := by
  have hbody : ∀ s, σ.body? (.word "else".toList :: .word "if".toList :: more ++ .str s :: after)
      = σ.elseIf? (more ++ .str s :: after) := fun s => rfl
  have helif : NoLiteral "elif ".toList := noLiteral_of_all rfl
  unfold elseIf? at hbody
  split at hbody
  · exact .inr ⟨[.word "else".toList, .word "if".toList], more, _, σ, .block (by decide), rfl,
      wraps_statement helif, hbody⟩
  · exact .inl hbody

/-- A first word may open a block or declare a name in front of the pipeline. -/
theorem stringBody_word (σ : Scope) (w : List Char) (rest after : List Token) :
    StringBody σ (.word w :: rest) after := by
  by_cases hif : w = "if".toList
  · rw [hif]
    exact .inr ⟨[.word "if".toList], rest, _, _, .block (by decide), rfl,
      wraps_statement (noLiteral_of_all rfl), fun s => rfl⟩
  by_cases hrange : w = "range".toList
  · rw [hrange]
    exact stringBody_range σ rest after
  by_cases helse : w = "else".toList ∧ ∃ more, rest = .word "if".toList :: more
  · obtain ⟨rfl, more, rfl⟩ := helse
    exact stringBody_elseIf σ more after
  have hopens : ∀ s, ¬ OpensBlock w (rest ++ .str s :: after) := by
    rintro s (hword | ⟨hword, hstarts⟩ | hword)
    · exact hif hword
    · obtain ⟨more, hmore⟩ := Option.isSome_iff_exists.1 hstarts
      unfold startsWith? at hmore
      split at hmore
      · next first behind he =>
        split at hmore
        · next hfirst =>
          cases rest with
          | nil => cases he
          | cons t rest =>
            cases he
            exact helse ⟨hword, rest, by rw [hfirst]⟩
        · cases hmore
      · cases hmore
    · exact hrange hword
  by_cases hdeclare : ∃ more, rest = .declare :: more
  · obtain ⟨more, rfl⟩ := hdeclare
    exact stringBody_declare hopens
  · have hshows : ∀ s, σ.body? (.word w :: rest ++ .str s :: after)
        = if reserved.contains w then none
          else body?.expression? σ (.word w :: rest ++ .str s :: after) := by
      intro s
      refine body?_of_shows (hopens s) (by simp) fun more he => ?_
      cases rest with
      | nil => cases he
      | cons t rest =>
        cases he
        exact hdeclare ⟨_, rfl⟩
    by_cases hreserved : reserved.contains w = true
    · exact .inl fun s => (hshows s).trans (if_pos hreserved)
    · exact stringBody_expression fun s => (hshows s).trans (if_neg hreserved)

/-- Where a string stands in a tag: the tag is left alone, whatever the string is, or its body is
that of a pipeline that ends in the string and the tokens behind it. -/
theorem stringBody (σ : Scope) (before after : List Token) : StringBody σ before after := by
  cases before with
  | nil => exact stringBody_expression fun s => rfl
  | cons first rest =>
    cases first with
    | word w => exact stringBody_word σ w rest after
    | str x => exact stringBody_expression fun s => rfl
    | num n => exact stringBody_expression fun s => rfl
    | bar => exact stringBody_expression fun s => rfl
    | opened => exact stringBody_expression fun s => rfl
    | closed => exact stringBody_expression fun s => rfl
    | comma => exact stringBody_expression fun s => rfl
    | declare => exact stringBody_expression fun s => rfl

end Scope

end Runbook.Template.Action
