import Runbook.Proofs.Template.References
/-!
# Pipelines as calls

Each stage of a pipeline is the last argument of the next one, so a pipeline is a call of its last
stage on a group, and the group is the pipeline in front of it.

* `Scope.wholeForm?`, `Scope.pipedForm?` — the trees of all actions, with pipelines and subscripts;
* `stageKind` — how a stage is put together; `of_stageKind_alone`, `of_stageKind_index`,
  `of_stageKind_call` — how a stage of each kind looks;
* `Scope.stages?_of_pipedForm?` — the text that a pipeline becomes is the text of its tree;
* `AsCalls` — a pipeline and the same pipeline with some of its bars written as calls;
* `Scope.pipedForm?_asCalls` — the trees of both come to the same;
* `pipelines_come_to_calls` — so do the tags, if the text of the pipeline is read as its tree; and
  if a filter stands in front of the bar, both tags become the same.

The text of a stage is put behind the words of the next one as it is, without parentheses, and its
operators may be weaker there than those around them (`pipe_regroups`).
-/

namespace Runbook.Template.Action

open Runbook.Text

namespace Scope

/-! ### Trees of pipelines -/

/-- Whether a term could have been written: a numeral has digits. -/
def isWritten : Term → Bool
  | .num [] => false
  | _ => true

/-- The tree of a call of `index`, which is a reference. -/
def indexForm? (s : Scope) (terms : List Term) : Option Form :=
  if terms.all isWritten then (s.index? terms).map .ref else none

mutual

/-- The tree of an operand, in which groups may be pipelines. -/
def wholeForm? (s : Scope) : Term → Option Form
  | .str text => (quotes.find? fun q => !text.contains q).map (.str · text)
  | .num n => (numeral? n).map (.num n)
  | .word word => s.wordForm? word
  | .group stages => (s.pipedForm? none stages).map Form.group
termination_by structural t => t

/-- The trees of operands. -/
def wholeForms? (s : Scope) : List Term → Option (List Form)
  | [] => some []
  | t :: rest => (s.wholeForm? t).bind fun f => (s.wholeForms? rest).map (f :: ·)
termination_by structural t => t

/-- The tree of a stage; `piped` is the tree of the stages in front of it. -/
def pipedStage? (s : Scope) (piped : Option Form) : List Term → Option Form
  | [] => none
  | t :: rest =>
    match calledName? t with
    | some name =>
      if rest.isEmpty && piped.isNone then s.wholeForm? t
      else if name = "index".toList then
        if piped.isNone then s.indexForm? rest else none
      else (s.wholeForms? rest).bind fun args => s.callForm? name (args ++ piped.toList)
    | none => if rest.isEmpty && piped.isNone then s.wholeForm? t else none
termination_by structural t => t

/-- The tree of stages, each of which is the last argument of the next. -/
def pipedForm? (s : Scope) (piped : Option Form) : List (List Term) → Option Form
  | [] => piped
  | stage :: rest => (s.pipedStage? piped stage).bind fun f => s.pipedForm? (some f) rest
termination_by structural t => t

end

/-- How a stage is put together: an operand on its own, subscripts behind `index`, or a call. -/
inductive StageKind where
  | alone
  | index
  | call (name : List Char)
  | refused

/-- The kind of a stage by its first term and those behind it; `isFirst` tells that there is no
stage in front of it. -/
def stageKind (isFirst : Bool) (t : Term) (rest : List Term) : StageKind :=
  if rest.isEmpty && isFirst then .alone
  else
    match calledName? t with
    | some name =>
      if name = "index".toList then (if isFirst then .index else .refused) else .call name
    | none => .refused

/-- A stage goes by its kind. -/
theorem stage?_eq (s : Scope) (piped : Option (List Char)) (t : Term) (rest : List Term) :
    s.stage? piped (t :: rest) = match stageKind piped.isNone t rest with
      | .alone => s.term? t
      | .index => s.index? rest
      | .call name => (s.terms? rest).bind fun args => s.call? name (args ++ piped.toList)
      | .refused => none := by
  unfold stage? stageKind
  cases calledName? t with
  | none =>
    dsimp only
    split <;> rfl
  | some name =>
    dsimp only
    split
    · rfl
    · split
      · split <;> rfl
      · rfl

/-- So does its tree. -/
theorem pipedStage?_eq (s : Scope) (piped : Option Form) (t : Term) (rest : List Term) :
    s.pipedStage? piped (t :: rest) = match stageKind piped.isNone t rest with
      | .alone => s.wholeForm? t
      | .index => s.indexForm? rest
      | .call name => (s.wholeForms? rest).bind fun args => s.callForm? name (args ++ piped.toList)
      | .refused => none := by
  unfold pipedStage? stageKind
  cases calledName? t with
  | none =>
    dsimp only
    split <;> rfl
  | some name =>
    dsimp only
    split
    · rfl
    · split
      · split <;> rfl
      · rfl

section Kinds

variable {isFirst : Bool} {t : Term} {rest : List Term} {name : List Char}

/-- A function that is called has a name. -/
theorem calledName?_of_stageKind (h : stageKind isFirst t rest = .call name) :
    calledName? t = some name := by
  unfold stageKind at h
  split at h
  · cases h
  · split at h
    · next found hname =>
      split at h
      · split at h <;> cases h
      · cases h
        exact hname
    · cases h

theorem eq_word_of_calledName? (h : calledName? t = some name) : t = .word name := by
  unfold calledName? at h
  split at h
  · split at h
    · cases h
      rfl
    · cases h
  · cases h

theorem calledName?_eq_none (h : ∀ w, t ≠ .word w) : calledName? t = none := by
  cases t with
  | word w => exact absurd rfl (h w)
  | str s => rfl
  | num n => rfl
  | group stages => rfl

/-- An operand stands on its own in front of no bar. -/
theorem of_stageKind_alone (h : stageKind isFirst t rest = .alone) :
    isFirst = true ∧ rest = [] := by
  unfold stageKind at h
  split at h
  · next halone =>
    obtain ⟨hrest, hfirst⟩ := Bool.and_eq_true_iff.1 halone
    exact ⟨hfirst, List.isEmpty_iff.1 hrest⟩
  · split at h
    · split at h
      · split at h <;> cases h
      · cases h
    · cases h

/-- Subscripts are not piped into. -/
theorem of_stageKind_index (h : stageKind isFirst t rest = .index) :
    isFirst = true ∧ t = .word "index".toList := by
  unfold stageKind at h
  split at h
  · cases h
  · split at h
    · next name hname =>
      split at h
      · next hindex =>
        rw [hindex] at hname
        split at h
        · next hfirst => exact ⟨hfirst, eq_word_of_calledName? hname⟩
        · cases h
      · cases h
    · cases h

/-- A call is one of any other function. -/
theorem of_stageKind_call (h : stageKind isFirst t rest = .call name) :
    t = .word name ∧ name ≠ "index".toList := by
  refine ⟨eq_word_of_calledName? (calledName?_of_stageKind h), ?_⟩
  rintro rfl
  have hname := calledName?_of_stageKind h
  unfold stageKind at h
  rw [hname] at h
  split at h
  · cases h
  · dsimp only at h
    rw [if_pos rfl] at h
    split at h <;> cases h

/-- A call on what is piped is a call with one more argument. -/
theorem stageKind_append {x : Term} (h : stageKind false t rest = .call name) :
    stageKind true t (rest ++ [x]) = .call name := by
  have hsome : (rest ++ [x]).isEmpty = false := by
    cases rest <;> rfl
  have hname := calledName?_of_stageKind h
  unfold stageKind at h ⊢
  rw [hname, Bool.and_false] at h
  rw [hname, hsome, Bool.false_and]
  dsimp only at h ⊢
  rw [if_neg Bool.false_ne_true] at h ⊢
  split at h
  · cases h
  · next hindex => rw [if_neg hindex]

/-- Only a call takes what is piped. -/
theorem stageKind_of_piped (t : Term) (rest : List Term) :
    (∃ name, stageKind false t rest = .call name) ∨ stageKind false t rest = .refused := by
  unfold stageKind
  rw [Bool.and_false, if_neg Bool.false_ne_true]
  split
  · split
    · exact .inr rfl
    · exact .inl ⟨_, rfl⟩
  · exact .inr rfl

end Kinds

theorem index?_of_indexForm? {s : Scope} {terms : List Term} {f : Form}
    (h : s.indexForm? terms = some f) :
    terms.all isWritten = true ∧ s.index? terms = some f.text ∧ f = .ref f.text := by
  unfold indexForm? at h
  split at h
  · next hwritten =>
    obtain ⟨path, hpath, rfl⟩ := Option.map_eq_some_iff.1 h
    exact ⟨hwritten, hpath, rfl⟩
  · cases h

mutual

theorem term?_of_wholeForm? (s : Scope) : (t : Term) → (f : Form) → s.wholeForm? t = some f →
    s.term? t = some f.text
  | .str text, f, h => by
    obtain ⟨q, hq, rfl⟩ := Option.map_eq_some_iff.1 h
    exact literal?_of_quote hq
  | .num n, f, h => by
    obtain ⟨v, -, rfl⟩ := Option.map_eq_some_iff.1 h
    rfl
  | .word word, f, h => word?_of_wordForm? h
  | .group stages, f, h => by
    obtain ⟨inner, hinner, rfl⟩ := Option.map_eq_some_iff.1 h
    have htext : s.stages? none stages = some inner.text :=
      stages?_of_pipedForm? s none stages inner hinner
    show (s.stages? none stages).map grouped = some inner.group.text
    rw [htext, Form.text_group]
    rfl
termination_by structural t => t

theorem terms?_of_wholeForms? (s : Scope) : (ts : List Term) → (fs : List Form) →
    s.wholeForms? ts = some fs → s.terms? ts = some (fs.map Form.text)
  | [], fs, h => by
    cases h
    rfl
  | t :: rest, fs, h => by
    obtain ⟨f, hf, hmore⟩ := Option.bind_eq_some_iff.1 h
    obtain ⟨more, hrest, rfl⟩ := Option.map_eq_some_iff.1 hmore
    show (s.term? t).bind (fun t => (s.terms? rest).map (t :: ·)) = _
    rw [term?_of_wholeForm? s t f hf, terms?_of_wholeForms? s rest more hrest]
    rfl
termination_by structural ts => ts

theorem stage?_of_pipedStage? (s : Scope) (piped : Option Form) : (stage : List Term) →
    (f : Form) → s.pipedStage? piped stage = some f →
      s.stage? (piped.map Form.text) stage = some f.text
  | [], f, h => nomatch h
  | t :: rest, f, h => by
    have hfirst : (piped.map Form.text).isNone = piped.isNone := Option.isNone_map
    rw [pipedStage?_eq] at h
    rw [stage?_eq, hfirst]
    cases hkind : stageKind piped.isNone t rest with
    | alone =>
      rw [hkind] at h
      exact term?_of_wholeForm? s t f h
    | index =>
      rw [hkind] at h
      exact (index?_of_indexForm? h).2.1
    | call name =>
      rw [hkind] at h
      obtain ⟨args, hargs, hcall⟩ := Option.bind_eq_some_iff.1 h
      have htexts : args.map Form.text ++ (piped.map Form.text).toList
          = (args ++ piped.toList).map Form.text := by
        cases piped <;> simp
      dsimp only
      rw [terms?_of_wholeForms? s rest args hargs, Option.bind_some, htexts]
      exact call?_of_callForm? hcall
    | refused =>
      rw [hkind] at h
      cases h
termination_by structural stage => stage

/-- **The text of a pipeline is the text of its tree.** -/
theorem stages?_of_pipedForm? (s : Scope) (piped : Option Form) : (stages : List (List Term)) →
    (f : Form) → s.pipedForm? piped stages = some f →
      s.stages? (piped.map Form.text) stages = some f.text
  | [], f, h => by
    have hpiped : piped = some f := h
    rw [hpiped]
    rfl
  | stage :: rest, f, h => by
    obtain ⟨g, hg, hrest⟩ := Option.bind_eq_some_iff.1 h
    show (s.stage? (piped.map Form.text) stage).bind (fun text => s.stages? (some text) rest) = _
    rw [stage?_of_pipedStage? s piped stage g hg]
    exact stages?_of_pipedForm? s (some g) rest f hrest
termination_by structural stages => stages

end

/-! ### Trees of pipelines are printed -/

/-- A subscript that was written keeps a reference one. -/
theorem isReference_of_subscript? {s : Scope} (hs : s.Sound) {base path : List Char} {t : Term}
    (hbase : IsReference base) (hwritten : isWritten t = true)
    (h : s.subscript? base t = some path) : IsReference path := by
  cases t with
  | str key =>
    rw [subscript?] at h
    split at h
    · next hkey =>
      cases h
      exact .of_isPath (isPath_of_isIdentifier hkey.2)
    · obtain ⟨literal, hliteral, rfl⟩ := Option.map_eq_some_iff.1 h
      obtain ⟨q, hq, rfl⟩ := Option.map_eq_some_iff.1 hliteral
      have hnot := List.find?_some hq
      exact hbase.subscript
        (.inr ⟨q, List.mem_of_find?_eq_some hq, key, Bool.not_eq_true' _ ▸ hnot, rfl⟩)
  | num n =>
    rw [subscript?] at h
    split at h
    · next hn =>
      cases h
      refine hbase.part (Bool.and_eq_true_iff.2 ⟨?_, ?_⟩)
      · cases n with
        | nil => cases hwritten
        | cons d digits => rfl
      · rw [List.all_eq_true]
        intro c hc
        exact isIdentChar_of_isDigit (List.all_eq_true.1 hn.2 c hc)
    · cases h
  | word word =>
    obtain ⟨key, hkey, h⟩ := Option.bind_eq_some_iff.1 h
    split at h
    · cases h
    · cases h
      exact hbase.subscript (.inl (hs.word? hkey))
  | group stages => cases h

theorem isReference_of_subscripts {s : Scope} (hs : s.Sound) {keys : List Term}
    (hwritten : keys.all isWritten = true) {base path : List Char} (hbase : IsReference base)
    (h : keys.foldlM s.subscript? base = some path) : IsReference path := by
  induction keys generalizing base with
  | nil =>
    cases h
    exact hbase
  | cons key keys ih =>
    obtain ⟨hkey, hkeys⟩ := Bool.and_eq_true_iff.1 hwritten
    rw [List.foldlM_cons] at h
    obtain ⟨next, hnext, h⟩ := Option.bind_eq_some_iff.1 h
    exact ih hkeys (isReference_of_subscript? hs hbase hkey hnext) h

theorem isReference_of_index? {s : Scope} (hs : s.Sound) {terms : List Term} {path : List Char}
    (hwritten : terms.all isWritten = true) (h : s.index? terms = some path) :
    IsReference path := by
  unfold index? at h
  split at h
  · next base key keys =>
    obtain ⟨first, hfirst, h⟩ := Option.bind_eq_some_iff.1 h
    exact isReference_of_subscripts hs (Bool.and_eq_true_iff.1 hwritten).2
      (.of_isPath (hs.word? hfirst)) h
  · cases h

open Form

mutual

theorem printed_of_wholeForm? {s : Scope} (hs : s.Sound) : (t : Term) → (f : Form) →
    s.wholeForm? t = some f → f.Printed ∧ f.IsArgument
  | .str text, f, h => by
    obtain ⟨q, hq, rfl⟩ := Option.map_eq_some_iff.1 h
    have hnot := List.find?_some hq
    exact ⟨⟨List.mem_of_find?_eq_some hq, Bool.not_eq_true' _ ▸ hnot⟩, .inr rfl⟩
  | .num n, f, h => by
    obtain ⟨v, hv, rfl⟩ := Option.map_eq_some_iff.1 h
    exact ⟨hv, .inr rfl⟩
  | .word word, f, h => printed_of_wordForm? hs h
  | .group stages, f, h => by
    obtain ⟨inner, hinner, rfl⟩ := Option.map_eq_some_iff.1 h
    obtain ⟨hprinted, hopens⟩ := printed_of_pipedForm? hs none stages inner hinner nofun
    exact printed_group hprinted hopens
termination_by structural t => t

theorem printed_of_wholeForms? {s : Scope} (hs : s.Sound) : (ts : List Term) →
    (fs : List Form) → s.wholeForms? ts = some fs → ∀ f ∈ fs, f.Printed ∧ f.IsArgument
  | [], fs, h => by
    cases h
    exact fun f hf => absurd hf List.not_mem_nil
  | t :: rest, fs, h => by
    obtain ⟨f, hf, hmore⟩ := Option.bind_eq_some_iff.1 h
    obtain ⟨more, hrest, rfl⟩ := Option.map_eq_some_iff.1 hmore
    intro g hg
    rcases List.mem_cons.1 hg with rfl | hg
    · exact printed_of_wholeForm? hs t g hf
    · exact printed_of_wholeForms? hs rest more hrest g hg
termination_by structural ts => ts

/-- What is piped stands last, so it need not be an argument. -/
theorem printed_of_pipedStage? {s : Scope} (hs : s.Sound) (piped : Option Form) :
    (stage : List Term) → (f : Form) → s.pipedStage? piped stage = some f →
      (∀ x, piped = some x → WellFormed x) → WellFormed f
  | [], f, h, _ => nomatch h
  | t :: rest, f, h, hpiped => by
    rw [pipedStage?_eq] at h
    cases hkind : stageKind piped.isNone t rest with
    | alone =>
      rw [hkind] at h
      obtain ⟨hprinted, hargument⟩ := printed_of_wholeForm? hs t f h
      exact wellFormed_of_argument hprinted hargument
    | index =>
      rw [hkind] at h
      obtain ⟨hwritten, hindex, href⟩ := index?_of_indexForm? h
      rw [href]
      exact wellFormed_of_argument (isReference_of_index? hs hwritten hindex) (.inr rfl)
    | call name =>
      rw [hkind] at h
      obtain ⟨args, hargs, hcall⟩ := Option.bind_eq_some_iff.1 h
      have hall := printed_of_wholeForms? hs rest args hargs
      refine wellFormed_of_callForm? (isIdentifier_of_calledName? (calledName?_of_stageKind hkind))
        ?_ ?_ hcall
      · intro a ha
        rcases List.mem_append.1 ha with ha | ha
        · exact (hall a ha).1
        · exact (hpiped a (Option.mem_toList.1 ha)).1
      · intro a b more heq
        -- at most one operand is piped, so the first of two is not
        cases args with
        | nil => cases piped <;> cases heq
        | cons first others =>
          obtain ⟨rfl, -⟩ := List.cons.inj heq
          exact (hall first List.mem_cons_self).2
    | refused =>
      rw [hkind] at h
      cases h
termination_by structural stage => stage

theorem printed_of_pipedForm? {s : Scope} (hs : s.Sound) (piped : Option Form) :
    (stages : List (List Term)) → (f : Form) → s.pipedForm? piped stages = some f →
      (∀ x, piped = some x → WellFormed x) → WellFormed f
  | [], f, h, hpiped => hpiped f h
  | stage :: rest, f, h, hpiped => by
    obtain ⟨g, hg, hrest⟩ := Option.bind_eq_some_iff.1 h
    refine printed_of_pipedForm? hs (some g) rest f hrest fun x hx => ?_
    cases hx
    exact printed_of_pipedStage? hs piped stage g hg hpiped
termination_by structural stages => stages

end

end Scope

/-! ### Calls and their last arguments -/

/-- Two trees come to the same everywhere. -/
def SameOutcome (f g : Form) : Prop :=
  ∀ (c : Context) (fs : Frames), f.outcome c fs = g.outcome c fs

namespace Scope

variable {s : Scope} {name : List Char} {args : List Form}

/-- A call is a function of its last argument, and what it comes to is one of what this comes to. -/
def MakesCall (s : Scope) (name : List Char) (args : List Form) (make : Form → Form) : Prop :=
  (∀ x, s.callForm? name (args ++ [x]) = some (make x)) ∧
    ∀ x y, SameOutcome x y → SameOutcome (make x) (make y)

theorem filterForm?_make {x f : Form} (h : s.filterForm? name [x] = some f) :
    ∃ make : Form → Form, (∀ y, s.filterForm? name [y] = some (make y)) ∧
      ∀ y z, SameOutcome y z → SameOutcome (make y) (make z) := by
  have hfiltered : ∀ (word : List Char) (y z : Form), SameOutcome y z →
      SameOutcome (.filtered y word) (.filtered z word) :=
    fun word y z hsame c fs => congrArg (Outcome.filter _) (hsame c fs)
  unfold filterForm? at h ⊢
  dsimp only at h ⊢
  split at h
  · next hnot =>
    exact ⟨.negated, fun _ => if_pos hnot,
      fun y z hsame c fs => congrArg Outcome.negate (hsame c fs)⟩
  · next hnot =>
    split at h
    · next hlen =>
      refine ⟨fun y => .filtered y "length".toList, fun y => ?_, hfiltered _⟩
      rw [if_neg hnot, if_pos hlen]
    · next hlen =>
      split at h
      · next hfilter =>
        refine ⟨fun y => .filtered y name, fun y => ?_, hfiltered name⟩
        rw [if_neg hnot, if_neg hlen, if_pos hfilter]
      · cases h

theorem joinForm?_make (args : List Form) {x f : Form}
    (h : s.joinForm? name (args ++ [x]) = some f) :
    ∃ make : Form → Form, (∀ y, s.joinForm? name (args ++ [y]) = some (make y)) ∧
      ∀ y z, SameOutcome y z → SameOutcome (make y) (make z) := by
  unfold joinForm? at h ⊢
  cases hop : logicOp? name with
  | none =>
    rw [hop] at h
    cases args with
    | nil => exact filterForm?_make h
    | cons a args => cases args <;> cases h
  | some op =>
    rw [hop] at h
    cases args with
    | nil => exact filterForm?_make h
    | cons a args =>
      refine ⟨fun y => .joined op (args.foldl (Form.joined op) a) y, fun y => ?_,
        fun y z hsame c fs => ?_⟩
      · cases args with
        | nil => rfl
        | cons b args =>
          show some ((b :: (args ++ [y])).foldl (Form.joined op) a) = _
          rw [← List.cons_append, List.foldl_append]
          rfl
      · simp only [Form.outcome, hsame c fs]

theorem exists_makesCall {x f : Form} (h : s.callForm? name (args ++ [x]) = some f) :
    ∃ make, s.MakesCall name args make := by
  unfold MakesCall callForm?
  unfold callForm? at h
  cases hop : compareOp? name with
  | none =>
    rw [hop] at h
    exact joinForm?_make args h
  | some op =>
    rw [hop] at h
    match args, h with
    | [], h => exact joinForm?_make [] h
    | [a], _ =>
      refine ⟨fun y => .compared op a y, fun _ => rfl, fun y z hsame c fs => ?_⟩
      simp only [Form.outcome, hsame c fs]
    | [a, b], h => exact joinForm?_make [a, b] h
    | a :: b :: c :: more, h => exact joinForm?_make (a :: b :: c :: more) h

/-! ### Bars as calls -/

variable {front stages : List (List Term)} {stage : List Term} {x y f : Form}

theorem wholeForms?_append {ts : List Term} {args : List Form} (h : s.wholeForms? ts = some args)
    {t : Term} (ht : s.wholeForm? t = some x) : s.wholeForms? (ts ++ [t]) = some (args ++ [x]) := by
  induction ts generalizing args with
  | nil =>
    cases h
    rw [List.nil_append, wholeForms?, ht]
    rfl
  | cons first ts ih =>
    obtain ⟨g, hg, hmore⟩ := Option.bind_eq_some_iff.1 h
    obtain ⟨more, hrest, rfl⟩ := Option.map_eq_some_iff.1 hmore
    rw [List.cons_append, wholeForms?, hg, Option.bind_some, ih hrest]
    rfl

/-- One more stage is a stage on what the stages in front of it are. -/
theorem pipedForm?_append (piped : Option Form) (hfront : front ≠ []) :
    s.pipedForm? piped (front ++ [stage])
      = (s.pipedForm? piped front).bind fun x => s.pipedStage? (some x) stage := by
  induction front generalizing piped with
  | nil => exact absurd rfl hfront
  | cons first front ih =>
    rw [List.cons_append, pipedForm?, pipedForm?]
    cases hfirst : s.pipedStage? piped first with
    | none => rfl
    | some g =>
      rw [Option.bind_some, Option.bind_some]
      cases front with
      | nil =>
        show (s.pipedStage? (some g) stage).bind (fun f => some f) = _
        rw [Option.bind_fun_some]
        rfl
      | cons next front => exact ih (some g) (List.cons_ne_nil _ _)

/-- **A bar is a call**: a stage on what is in front of it is the call of the stage on this as a
group. -/
theorem pipedStage?_group (hsame : SameOutcome x y) (hfront : s.pipedForm? none front = some y)
    (hstage : s.pipedStage? (some x) stage = some f) :
    ∃ g, s.pipedForm? none [stage ++ [.group front]] = some g ∧ SameOutcome f g := by
  cases stage with
  | nil => cases hstage
  | cons t rest =>
    rw [pipedStage?_eq, Option.isNone_some] at hstage
    rcases stageKind_of_piped t rest with ⟨name, hkind⟩ | hkind
    · rw [hkind] at hstage
      obtain ⟨args, hargs, hcall⟩ := Option.bind_eq_some_iff.1 hstage
      obtain ⟨make, hmake, hcongr⟩ := exists_makesCall hcall
      have hgroup : s.wholeForm? (.group front) = some y.group := by
        rw [wholeForm?, hfront]
        rfl
      refine ⟨make y.group, ?_, ?_⟩
      · show (s.pipedStage? none (t :: (rest ++ [.group front]))).bind some = _
        rw [Option.bind_fun_some, pipedStage?_eq, Option.isNone_none, stageKind_append hkind]
        dsimp only
        rw [wholeForms?_append hargs hgroup, Option.bind_some, Option.toList_none, List.append_nil]
        exact hmake y.group
      · rw [Option.toList_some, hmake x] at hcall
        cases hcall
        refine hcongr x y.group fun c fs => ?_
        rw [Form.outcome_group, hsame c fs]
    · rw [hkind] at hstage
      cases hstage

end Scope

/-- A pipeline, and the same pipeline with some of its bars written as calls: what stands in front
of the last bar is a group, which is the last argument of the last stage. -/
inductive AsCalls : Pipeline → Pipeline → Prop where
  | same (p : Pipeline) : AsCalls p p
  | call {front front' : Pipeline} (hfront : front ≠ []) (h : AsCalls front front')
    (stage : Stage) : AsCalls (front ++ [stage]) [stage ++ [.group front']]

namespace Scope

variable {s : Scope}

/-- The trees of a pipeline and of its calls come to the same. -/
theorem pipedForm?_asCalls {p q : Pipeline} (h : AsCalls p q) {f : Form}
    (hf : s.pipedForm? none p = some f) :
    ∃ g, s.pipedForm? none q = some g ∧ SameOutcome f g := by
  induction h generalizing f with
  | same p => exact ⟨f, hf, fun _ _ => rfl⟩
  | call hfront h stage ih =>
    rw [pipedForm?_append none hfront] at hf
    obtain ⟨x, hx, hstage⟩ := Option.bind_eq_some_iff.1 hf
    obtain ⟨y, hy, hsame⟩ := ih hx
    exact pipedStage?_group hsame hy hstage

/-! ### Pipelines with a filter in front of the bar -/

variable {front : List (List Term)} {stage : List Term} {piped out : List Char}

theorem stages?_append (before : Option (List Char)) (hfront : front ≠ []) :
    s.stages? before (front ++ [stage])
      = (s.stages? before front).bind fun text => s.stage? (some text) stage := by
  induction front generalizing before with
  | nil => exact absurd rfl hfront
  | cons first front ih =>
    rw [List.cons_append, stages?, stages?]
    cases hfirst : s.stage? before first with
    | none => rfl
    | some text =>
      rw [Option.bind_some, Option.bind_some]
      cases front with
      | nil =>
        show (s.stage? (some text) stage).bind (fun text => some text) = _
        rw [Option.bind_fun_some]
        rfl
      | cons next front => exact ih (some text) (List.cons_ne_nil _ _)

theorem terms?_append {ts : List Term} {args : List (List Char)} (h : s.terms? ts = some args)
    {t : Term} (ht : s.term? t = some piped) : s.terms? (ts ++ [t]) = some (args ++ [piped]) := by
  induction ts generalizing args with
  | nil =>
    cases h
    rw [List.nil_append, terms?, ht]
    rfl
  | cons first ts ih =>
    obtain ⟨text, htext, hmore⟩ := Option.bind_eq_some_iff.1 h
    obtain ⟨more, hrest, rfl⟩ := Option.map_eq_some_iff.1 hmore
    rw [List.cons_append, terms?, htext, Option.bind_some, ih hrest]
    rfl

/-- A group that holds a filter is printed as it is piped, so the bar and the call become the
same. -/
theorem stages?_group_of_bar (hfront : front ≠ []) (hpiped : s.stages? none front = some piped)
    (hbar : Text.contains bar piped = true) (h : s.stages? none (front ++ [stage]) = some out) :
    s.stages? none [stage ++ [.group front]] = some out := by
  rw [stages?_append none hfront, hpiped, Option.bind_some] at h
  have hgroup : s.term? (.group front) = some piped := by
    rw [term?, hpiped]
    exact congrArg some (if_pos hbar)
  show (s.stage? none (stage ++ [.group front])).bind some = _
  rw [Option.bind_fun_some]
  cases stage with
  | nil => cases h
  | cons t rest =>
    rw [stage?_eq, Option.isNone_some] at h
    rcases stageKind_of_piped t rest with ⟨name, hkind⟩ | hkind
    · rw [hkind] at h
      obtain ⟨args, hargs, hcall⟩ := Option.bind_eq_some_iff.1 h
      rw [List.cons_append, stage?_eq, Option.isNone_none, stageKind_append hkind]
      dsimp only
      rw [terms?_append hargs hgroup, Option.bind_some, Option.toList_none, List.append_nil]
      exact hcall
    · rw [hkind] at h
      cases h

/-! ### Tags -/

/-- The action of a tag as a pipeline. -/
def actionPipeline? (s : Scope) (tag : List Char) : Option Pipeline :=
  ((tagTokens? tag).bind s.actionTokens?).bind readPipeline?

theorem actionPipeline?_of_tokens {s : Scope} {tag : List Char} {tokens : List Token}
    (h : (tagTokens? tag).bind s.actionTokens? = some tokens) :
    s.actionPipeline? tag = readPipeline? tokens := by
  rw [actionPipeline?, h]
  rfl

/-- What a tag with a pipeline becomes keeps the grouping of its tree. -/
theorem keepsGrouping_of_pipedForm? {filters : List (List Char)} {s s' : Scope}
    (hs : Reached filters s) {tag text : List Char} {p : Pipeline} {f : Form}
    (htag : s.tag? tag = some (text, s')) (hp : s.actionPipeline? tag = some p)
    (hf : s.pipedForm? none p = some f) (hkept : f.Kept = true) : KeepsGrouping f text := by
  rcases tag?_cases htag with ⟨inner, rfl⟩ | ⟨tokens, body, left, right, htokens, hbody, rfl⟩
  · exact keepsGrouping_comment f inner
  · have hprinted : f.Printed := (printed_of_pipedForm? hs.sound none p f hf nofun).1
    have htext : s.stages? none p = some f.text := stages?_of_pipedForm? s none p f hf
    refine hbody.keepsGrouping hkept hprinted (fun inner hinner => ?_) left right
    unfold actionPipeline? at hp
    obtain ⟨action, haction, hinner⟩ := Option.bind_eq_some_iff.1 hinner
    rw [htokens, Option.bind_some, haction, Option.bind_some] at hp
    rw [pipeline?, hp, Option.bind_some, htext] at hinner
    exact (Option.some.inj hinner).symm

end Scope

/-- Where both tags are read as shown values and rendered, they show the same. -/
def ShowSame (text text' : List Char) : Prop :=
  ∀ rest node behind rest' node' behind', readDisplay (text ++ rest) = some (node, behind) →
    readDisplay (text' ++ rest') = some (node', behind') →
      ∀ c fs out out', renderNode c node fs = some out → renderNode c node' fs = some out' →
        out = out'

theorem KeepsGrouping.showSame {f g : Form} {text text' : List Char} (hf : KeepsGrouping f text)
    (hg : KeepsGrouping g text') (hsame : SameOutcome f g) (hfshown : f.negatesCompared = false)
    (hgshown : g.negatesCompared = false) : ShowSame text text' := by
  intro rest node behind rest' node' behind' hread hread' c fs out out' hout hout'
  obtain ⟨v, hv, rfl⟩ := (hf.shown hfshown rest node behind hread).2 c fs out hout
  obtain ⟨w, hw, rfl⟩ := (hg.shown hgshown rest' node' behind' hread').2 c fs out' hout'
  rw [hsame c fs, hw] at hv
  cases hv
  rfl

namespace Scope

/-- **Pipelines are calls**: a tag with a pipeline comes to what its stages come to as calls, each
on what stands in front of its bar as one unit.

* So it is whatever the stages are, if the text of the pipeline is read as its tree; and the tag of
  the calls then shows the same.
* If the text in front of the last bar holds a filter, the pipeline and the call become the same
  text. -/
theorem pipelines_come_to_calls {filters : List (List Char)} {s s' : Scope}
    (hs : Reached filters s) {tag text : List Char} (htag : s.tag? tag = some (text, s'))
    {p q : Pipeline} (hp : s.actionPipeline? tag = some p) (hcalls : AsCalls p q) :
    (∀ f, s.pipedForm? none p = some f → f.Kept = true → KeepsGrouping f text ∧
      ∃ g, s.pipedForm? none q = some g ∧ SameOutcome f g ∧
        ∀ call text' t, s.tag? call = some (text', t) → s.actionPipeline? call = some q →
          g.Kept = true → KeepsGrouping g text' ∧
            (f.negatesCompared = false → g.negatesCompared = false → ShowSame text text')) ∧
    ∀ front stage piped inner, p = front ++ [stage] → front ≠ [] →
      q = [stage ++ [.group front]] → s.stages? none front = some piped →
        Text.contains bar piped = true → s.stages? none p = some inner →
          s.stages? none q = some inner := by
  constructor
  · intro f hf hkept
    have hkeeps : KeepsGrouping f text := keepsGrouping_of_pipedForm? hs htag hp hf hkept
    obtain ⟨g, hg, hsame⟩ := pipedForm?_asCalls hcalls hf
    refine ⟨hkeeps, g, hg, hsame, fun call text' t hcall hq hkept' => ?_⟩
    have hkeeps' : KeepsGrouping g text' := keepsGrouping_of_pipedForm? hs hcall hq hg hkept'
    exact ⟨hkeeps', hkeeps.showSame hkeeps' hsame⟩
  · rintro front stage piped inner rfl hfront rfl hpiped hbar hinner
    exact stages?_group_of_bar hfront hpiped hbar hinner

/-- A pipeline: `index .hosts "web-1" | eq "up" | and .ready`. -/
def statusTag : List Char :=
  "\x7b\x7b index .hosts \"web-1\" | eq \"up\" | and .ready \x7d\x7d".toList

/-- The same as calls: `and .ready (eq "up" (index .hosts "web-1"))`. -/
def statusCall : List Char :=
  "\x7b\x7b and .ready (eq \"up\" (index .hosts \"web-1\")) \x7d\x7d".toList

/-- The stages of the pipeline. -/
def statusStages : Pipeline :=
  [[.word "index".toList, .word ".hosts".toList, .str "web-1".toList],
    [.word "eq".toList, .str "up".toList], [.word "and".toList, .word ".ready".toList]]

/-- The stages of the calls. -/
def statusCalls : Pipeline :=
  [[.word "and".toList, .word ".ready".toList,
    .group [[.word "eq".toList, .str "up".toList,
      .group [[.word "index".toList, .word ".hosts".toList, .str "web-1".toList]]]]]]

theorem asCalls_status : AsCalls statusStages statusCalls :=
  .call (List.cons_ne_nil _ _)
    (.call (List.cons_ne_nil _ _) (.same [[.word "index".toList, .word ".hosts".toList,
      .str "web-1".toList]]) [.word "eq".toList, .str "up".toList])
    [.word "and".toList, .word ".ready".toList]

/-- The pipeline and the calls show the same. -/
theorem pipelines_come_to_calls_of_status :
    ∃ text text', ({ filters := [] } : Scope).tag? statusTag = some (text, { filters := [] }) ∧
      ({ filters := [] } : Scope).tag? statusCall = some (text', { filters := [] }) ∧
      ShowSame text text' := by
  have htag : ({ filters := [] } : Scope).tag? statusTag
      = some ("\x7b\x7b ready and \"up\" == hosts[\"web-1\"] \x7d\x7d".toList,
        { filters := [] }) :=
    tag?_of_becomes? (by decide +kernel)
  have hcall : ({ filters := [] } : Scope).tag? statusCall
      = some ("\x7b\x7b ready and (\"up\" == (hosts[\"web-1\"])) \x7d\x7d".toList,
        { filters := [] }) :=
    tag?_of_becomes? (by decide +kernel)
  have hp : ({ filters := [] } : Scope).actionPipeline? statusTag = some statusStages := by
    have htokens : (tagTokens? statusTag).bind (Scope.actionTokens? { filters := [] })
        = some [.word "index".toList, .word ".hosts".toList, .str "web-1".toList, .bar,
          .word "eq".toList, .str "up".toList, .bar, .word "and".toList,
          .word ".ready".toList] := by decide +kernel
    exact actionPipeline?_of_tokens htokens
  have hq : ({ filters := [] } : Scope).actionPipeline? statusCall = some statusCalls := by
    have htokens : (tagTokens? statusCall).bind (Scope.actionTokens? { filters := [] })
        = some [.word "and".toList, .word ".ready".toList, .opened, .word "eq".toList,
          .str "up".toList, .opened, .word "index".toList, .word ".hosts".toList,
          .str "web-1".toList, .closed, .closed] := by decide +kernel
    exact actionPipeline?_of_tokens htokens
  have hread : ∀ p ∈ [statusStages, statusCalls], ∀ f,
      ({ filters := [] } : Scope).pipedForm? none p = some f →
        f.Kept = true ∧ f.negatesCompared = false := by
    intro p hp f hf
    have hall : ∀ p ∈ [statusStages, statusCalls],
        ((({ filters := [] } : Scope).pipedForm? none p).all
          fun f => f.Kept && !f.negatesCompared) = true := by decide +kernel
    have hallowed := hall p hp
    rw [hf, Option.all_some, Bool.and_eq_true, Bool.not_eq_true'] at hallowed
    exact hallowed
  have hsome : (({ filters := [] } : Scope).pipedForm? none statusStages).isSome = true := by
    decide +kernel
  obtain ⟨f, hf⟩ := Option.isSome_iff_exists.1 hsome
  obtain ⟨hkept, hshown⟩ := hread statusStages List.mem_cons_self f hf
  obtain ⟨-, g, hg, -, hsame⟩ :=
    (pipelines_come_to_calls .start htag hp asCalls_status).1 f hf hkept
  obtain ⟨hkept', hshown'⟩ :=
    hread statusCalls (List.mem_cons_of_mem _ List.mem_cons_self) g hg
  exact ⟨_, _, htag, hcall, (hsame _ _ _ hcall hq hkept').2 hshown hshown'⟩

/-- A bar regroups what is in front of it: `or .a .b | and .c` becomes `c and a or b`. -/
theorem pipe_regroups :
    ¬ ∀ (vars : Namespace) (front stage : List Char),
      (({ filters := [] } : Scope).tag? ("\x7b\x7b ".toList ++ front ++ " | ".toList ++ stage
        ++ " \x7d\x7d".toList)).isSome = true →
      (({ filters := [] } : Scope).tag? ("\x7b\x7b ".toList ++ stage ++ " (".toList ++ front
        ++ ") \x7d\x7d".toList)).isSome = true →
      interpolate [] vars (String.ofList ("\x7b\x7b ".toList ++ front ++ " | ".toList ++ stage
          ++ " \x7d\x7d".toList))
        = interpolate [] vars (String.ofList ("\x7b\x7b ".toList ++ stage ++ " (".toList ++ front
          ++ ") \x7d\x7d".toList)) := by
  intro hclaim
  have hsame := hclaim [("a", .bool false), ("b", .bool true), ("c", .bool false)]
    "or .a .b".toList "and .c".toList (by decide +kernel) (by decide +kernel)
  have hpiped : interpolate [] [("a", .bool false), ("b", .bool true), ("c", .bool false)]
      (String.ofList ("\x7b\x7b ".toList ++ "or .a .b".toList ++ " | ".toList ++ "and .c".toList
        ++ " \x7d\x7d".toList)) = "true" := by decide +kernel
  have hcalled : interpolate [] [("a", .bool false), ("b", .bool true), ("c", .bool false)]
      (String.ofList ("\x7b\x7b ".toList ++ "and .c".toList ++ " (".toList ++ "or .a .b".toList
        ++ ") \x7d\x7d".toList)) = "false" := by decide +kernel
  rw [hpiped, hcalled] at hsame
  exact absurd hsame (by decide)

end Scope

end Runbook.Template.Action
