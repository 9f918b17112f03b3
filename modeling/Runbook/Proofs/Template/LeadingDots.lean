import Runbook.Proofs.Template.Blocks
import Runbook.Proofs.Template.Dependence
import Runbook.Proofs.Template.Pipelines
import Runbook.Proofs.Template.Plain
/-!
# Leading dots inside loops

Inside a loop a leading dot is off the element of the loop in a tag that is translated; from any
other tag it is dropped, as it is outside all loops.

* `undotted` — an action with the variable of a loop in place of its leading dots;
  `Scope.stages?_undotted` — outside all loops this becomes what the action becomes inside;
* `stripDots_name` — a leading dot is dropped and the name behind it stays;
* `Steady` — what an expression comes to inside loops is what it comes to in front of the template;
* `dots_in_loops` — what each tag of a template reads inside a loop;
* `tags_differ_in_loops` — so tags of both kinds may read different values under one name.
-/

namespace Runbook.Template.Action

open Runbook.Text

/-! ### Actions without leading dots -/

/-- A word with the variable `dot` in place of its leading dot. -/
def undottedWord (dot : List Char) : List Char → List Char
  | ['.'] => '$' :: dot
  | '.' :: path => '$' :: (dot ++ '.' :: path)
  | word => word

mutual

/-- An operand with the variable `dot` in place of all leading dots. -/
def undottedTerm (dot : List Char) : Term → Term
  | .word word => .word (undottedWord dot word)
  | .group stages => .group (undotted dot stages)
  | .str text => .str text
  | .num n => .num n
termination_by structural t => t

/-- Operands. -/
def undottedTerms (dot : List Char) : List Term → List Term
  | [] => []
  | t :: rest => undottedTerm dot t :: undottedTerms dot rest
termination_by structural ts => ts

/-- A pipeline. -/
def undotted (dot : List Char) : List (List Term) → List (List Term)
  | [] => []
  | stage :: rest => undottedTerms dot stage :: undotted dot rest
termination_by structural stages => stages

end

theorem undottedTerms_isEmpty (dot : List Char) (ts : List Term) :
    (undottedTerms dot ts).isEmpty = ts.isEmpty := by
  cases ts <;> rfl

namespace Scope

/-- A scope with all blocks closed. -/
def outside (s : Scope) : Scope :=
  { s with blocks := [] }

/-- Functions are no words with a dot. -/
theorem calledName?_undotted (dot : List Char) (t : Term) :
    calledName? (undottedTerm dot t) = calledName? t := by
  cases t with
  | word word =>
    show calledName? (.word (undottedWord dot word)) = _
    unfold undottedWord
    split <;> rfl
  | group stages => rfl
  | str text => rfl
  | num n => rfl

section Undotted

variable {s : Scope} {dot : List Char}

/-- A word that is a path is that path, unless it is the word for nothing. -/
theorem word?_of_isPath {word : List Char} (h : isPath word = true) (s : Scope) :
    s.word? word = if word = "nil".toList then none else some word := by
  have hpath : path? word = some word := if_pos h
  obtain ⟨c, rest, rfl, hc⟩ := (IsReference.of_isPath h).head
  unfold Scope.word?
  split
  · next heq =>
    cases heq
    cases hc
  · next heq =>
    cases heq
    cases hc
  · next heq =>
    cases heq
    cases hc
  · next heq =>
    cases heq
    cases hc
  · next heq =>
    cases heq
    cases hc
  · rw [hpath]

/-- A word with a leading dot is a word off the variable of the innermost loop. -/
theorem word?_undotted (hident : isIdentifier dot = true) (hdot : s.dot? = some dot)
    {word text : List Char} (h : s.word? word = some text) :
    s.outside.word? (undottedWord dot word) = some text := by
  have hword := h
  unfold Scope.word? at h
  split at h
  · -- the element itself
    rw [hdot] at h
    cases h
    exact word?_variable (isPath_of_isIdentifier hident)
  · exact h
  · exact h
  · have hpath := isPath_of_path? h
    obtain rfl := eq_of_path? h
    exact word?_variable hpath
  · next path hself =>
    -- a path off the element
    obtain ⟨found, hfound, rfl⟩ := Option.map_eq_some_iff.1 h
    have hpath := isPath_of_path? hfound
    obtain rfl := eq_of_path? hfound
    have hundotted : undottedWord dot ('.' :: found) = '$' :: (dot ++ '.' :: found) := by
      cases found with
      | nil => cases hpath
      | cons c rest => rfl
    rw [hundotted, hdot]
    exact word?_variable (isPath_append hident hpath)
  · split at h
    · cases h
    · have hpath := isPath_of_path? h
      obtain rfl := eq_of_path? h
      have hsame : undottedWord dot text = text := by
        obtain ⟨c, rest, rfl, hc⟩ := (IsReference.of_isPath hpath).head
        unfold undottedWord
        split
        · next heq =>
          cases heq
          cases hc
        · next heq =>
          cases heq
          cases hc
        · rfl
      rw [hsame, word?_of_isPath hpath, ← word?_of_isPath hpath s]
      exact hword

/-- A subscript that is a word is one off the variable. -/
theorem subscript?_undotted (hident : isIdentifier dot = true) (hdot : s.dot? = some dot)
    {base text : List Char} {t : Term} (h : s.subscript? base t = some text) :
    s.outside.subscript? base (undottedTerm dot t) = some text := by
  cases t with
  | str key => exact h
  | num n => exact h
  | word word =>
    obtain ⟨key, hkey, h⟩ := Option.bind_eq_some_iff.1 h
    have hkey' := word?_undotted hident hdot hkey
    show (s.outside.word? (undottedWord dot word)).bind _ = some text
    rw [hkey', Option.bind_some]
    exact h
  | group stages => cases h

theorem subscripts_undotted (hident : isIdentifier dot = true) (hdot : s.dot? = some dot)
    {keys : List Term} {base text : List Char} (h : keys.foldlM s.subscript? base = some text) :
    (undottedTerms dot keys).foldlM s.outside.subscript? base = some text := by
  induction keys generalizing base with
  | nil => exact h
  | cons key keys ih =>
    rw [List.foldlM_cons] at h
    obtain ⟨next, hnext, h⟩ := Option.bind_eq_some_iff.1 h
    show (undottedTerm dot key :: undottedTerms dot keys).foldlM _ base = some text
    rw [List.foldlM_cons, subscript?_undotted hident hdot hnext]
    exact ih h

/-- Subscripts behind a word are subscripts behind one off the variable. -/
theorem index?_undotted (hident : isIdentifier dot = true) (hdot : s.dot? = some dot)
    {terms : List Term} {text : List Char} (h : s.index? terms = some text) :
    s.outside.index? (undottedTerms dot terms) = some text := by
  unfold index? at h
  split at h
  · next word key keys =>
    obtain ⟨base, hbase, h⟩ := Option.bind_eq_some_iff.1 h
    have hbase' := word?_undotted hident hdot hbase
    show (s.outside.word? (undottedWord dot word)).bind _ = some text
    rw [hbase', Option.bind_some]
    exact subscripts_undotted hident hdot h
  · cases h

/-- Calls do not go by the open blocks. -/
theorem call?_outside (s : Scope) (name : List Char) (args : List (List Char)) :
    s.outside.call? name args = s.call? name args :=
  rfl

mutual

/-- An operand becomes what it becomes outside all loops without its leading dots. -/
theorem term?_undotted (hident : isIdentifier dot = true) (hdot : s.dot? = some dot) :
    (t : Term) → (text : List Char) → s.term? t = some text →
      s.outside.term? (undottedTerm dot t) = some text
  | .str _, _, h => h
  | .num _, _, h => h
  | .word _, _, h => word?_undotted hident hdot h
  | .group stages, text, h => by
    obtain ⟨inner, hinner, rfl⟩ := Option.map_eq_some_iff.1 h
    have hinner' := stages?_undotted hident hdot stages none inner hinner
    show (s.outside.stages? none (undotted dot stages)).map grouped = _
    rw [hinner']
    rfl
termination_by structural t => t

/-- So do operands. -/
theorem terms?_undotted (hident : isIdentifier dot = true) (hdot : s.dot? = some dot) :
    (ts : List Term) → (texts : List (List Char)) → s.terms? ts = some texts →
      s.outside.terms? (undottedTerms dot ts) = some texts
  | [], _, h => h
  | t :: rest, texts, h => by
    obtain ⟨text, htext, h⟩ := Option.bind_eq_some_iff.1 h
    obtain ⟨more, hmore, rfl⟩ := Option.map_eq_some_iff.1 h
    have htext' := term?_undotted hident hdot t text htext
    have hmore' := terms?_undotted hident hdot rest more hmore
    show (s.outside.term? (undottedTerm dot t)).bind
      (fun text => (s.outside.terms? (undottedTerms dot rest)).map (text :: ·)) = _
    rw [htext', hmore']
    rfl
termination_by structural ts => ts

/-- So does a stage. -/
theorem stage?_undotted (hident : isIdentifier dot = true) (hdot : s.dot? = some dot) :
    (stage : List Term) → (piped : Option (List Char)) → (text : List Char) →
      s.stage? piped stage = some text →
        s.outside.stage? piped (undottedTerms dot stage) = some text
  | [], _, _, h => nomatch h
  | t :: rest, piped, text, h => by
    have hkinds : stageKind piped.isNone (undottedTerm dot t) (undottedTerms dot rest)
        = stageKind piped.isNone t rest := by
      unfold stageKind
      rw [calledName?_undotted, undottedTerms_isEmpty]
    show s.outside.stage? piped (undottedTerm dot t :: undottedTerms dot rest) = some text
    rw [stage?_eq] at h
    rw [stage?_eq, hkinds]
    cases hkind : stageKind piped.isNone t rest with
    | alone =>
      rw [hkind] at h
      exact term?_undotted hident hdot t text h
    | index =>
      rw [hkind] at h
      exact index?_undotted hident hdot h
    | call name =>
      rw [hkind] at h
      obtain ⟨args, hargs, hcall⟩ := Option.bind_eq_some_iff.1 h
      dsimp only
      rw [terms?_undotted hident hdot rest args hargs, Option.bind_some, call?_outside]
      exact hcall
    | refused =>
      rw [hkind] at h
      cases h
termination_by structural stage => stage

/-- **A pipeline inside a loop becomes what it becomes outside all loops** with the variable of the
innermost loop in place of every leading dot. -/
theorem stages?_undotted (hident : isIdentifier dot = true) (hdot : s.dot? = some dot) :
    (stages : List (List Term)) → (piped : Option (List Char)) → (text : List Char) →
      s.stages? piped stages = some text →
        s.outside.stages? piped (undotted dot stages) = some text
  | [], _, _, h => h
  | stage :: rest, piped, text, h => by
    obtain ⟨first, hfirst, h⟩ := Option.bind_eq_some_iff.1 h
    have hfirst' := stage?_undotted hident hdot stage piped first hfirst
    show (s.outside.stage? piped (undottedTerms dot stage)).bind
      (fun text => s.outside.stages? (some text) (undotted dot rest)) = _
    rw [hfirst', Option.bind_some]
    exact stages?_undotted hident hdot rest (some first) text h
termination_by structural stages => stages

end

end Undotted

end Scope

/-! ### Dots that are dropped -/

/-- Text whose first character starts no name does not change what is dropped in front of it. -/
theorem stripDots_append (ready : Bool) (front : List Char) {back : List Char}
    (hback : back.head?.any isIdentStart = false) :
    stripDots ready (front ++ back)
      = stripDots ready front ++ stripDots ((front.getLast?.map precedesDot).getD ready) back := by
  induction front generalizing ready with
  | nil => rfl
  | cons c rest ih =>
    have hnext : (rest ++ back).head?.any isIdentStart = rest.head?.any isIdentStart := by
      cases rest with
      | nil => exact hback
      | cons d more => rfl
    have hlast (r : Bool) : ((c :: rest).getLast?.map precedesDot).getD r
        = (rest.getLast?.map precedesDot).getD (precedesDot c) := by
      cases rest with
      | nil => rfl
      | cons d more =>
        rw [List.getLast?_cons_cons]
        cases h : (d :: more).getLast? with
        | none => cases List.getLast?_eq_none_iff.1 h
        | some last => rfl
    rw [List.cons_append, stripDots, stripDots, hnext, hlast]
    split
    · next hdrop =>
      have hc : c = '.' := by
        simp only [Bool.and_eq_true, beq_iff_eq] at hdrop
        exact hdrop.1.2
      rw [ih, hc]
      rfl
    · rw [ih]
      rfl

/-- Behind a character of a name no dot starts a reference. -/
theorem precedesDot_of_isIdentChar {c : Char} (h : isIdentChar c = true) :
    precedesDot c = false := by
  have hother : "\x7b([|,=!<>+*/%-".toList.contains c = false := by
    rw [Bool.eq_false_iff, Ne, List.contains_iff_mem]
    intro hmem
    have hnone : ∀ d ∈ "\x7b([|,=!<>+*/%-".toList, isIdentChar d = false := by decide
    rw [hnone c hmem] at h
    cases h
  unfold precedesDot
  rw [isBlank_of_isIdentChar h, hother]
  rfl

/-- A name keeps its characters, and no dot behind it is dropped as the start of a reference. -/
theorem stripDots_name {name : List Char} (h : name.all isIdentChar = true) (back : List Char) :
    stripDots false (name ++ back) = name ++ stripDots false back := by
  induction name with
  | nil => rfl
  | cons c rest ih =>
    obtain ⟨hc, hrest⟩ := Bool.and_eq_true_iff.1 h
    rw [List.cons_append, stripDots, precedesDot_of_isIdentChar hc, ih hrest]
    rfl

/-- **A leading dot is dropped**, and the name behind it stays. -/
theorem stripDots_of_leadingDot {tag front name back : List Char}
    (h : LeadingDot tag front (name ++ back)) (hname : isIdentifier name = true) :
    stripDots true tag = stripDots true front ++ (name ++ stripDots false back) := by
  have hready : (front.getLast?.map precedesDot).getD true = true := by
    rw [getD_precedesDot]
    exact h.free
  have hdrop : stripDots true ('.' :: (name ++ back)) = stripDots false (name ++ back) := by
    have hstarts := h.starts
    rw [stripDots, if_pos]
    simpa using hstarts
  rw [h.split, stripDots_append true front rfl, hready, hdrop,
    stripDots_name (all_of_isIdentifier hname)]

/-! ### Conditions of the template language -/

/-- A condition on a leading dot in a tag that is never translated. -/
def plainCondition (name : List Char) : List Char :=
  "\x7b% if .".toList ++ (name ++ " %\x7d".toList)

theorem leadingDot_plainCondition {name : List Char} (h : isIdentifier name = true) :
    LeadingDot (plainCondition name) "\x7b% if ".toList (name ++ " %\x7d".toList) where
  split := rfl
  free := by decide
  starts := by
    cases name with
    | nil => cases h
    | cons c rest => exact (Bool.and_eq_true_iff.1 h).1

/-- It decides by the plain name. -/
theorem keepsGrouping_plainCondition {name : List Char} (h : isIdentifier name = true)
    (hkept : (Form.ref name).Kept = true) :
    KeepsGrouping (.ref name) (stripDots true (plainCondition name)) := by
  -- outside all loops the same condition in dot style becomes the same text
  have haction : ({ filters := [] } : Scope).actionText? [.word "if".toList, .word ('.' :: name)]
      = some name := by
    show ({ filters := [] } : Scope).pipeline? [.word ('.' :: name)] = some name
    rw [Scope.pipeline?_word (Scope.isFunctionName_of_dot name),
      Scope.word?_dot (isPath_of_isIdentifier h)]
    rfl
  have hbody : ({ filters := [] } : Scope).BodyOf [.word "if".toList, .word ('.' :: name)]
      (.statement ("if ".toList ++ name)) :=
    .decides List.mem_cons_self haction
  have htext : stripDots true (plainCondition name)
      = (TagBody.statement ("if ".toList ++ name)).text false false :=
    stripDots_of_leadingDot (leadingDot_plainCondition h) h
  rw [htext]
  refine hbody.keepsGrouping hkept (IsReference.of_isPath (isPath_of_isIdentifier h))
    (fun inner hinner => ?_) false false
  rw [haction] at hinner
  exact (Option.some.inj hinner).symm

/-! ### Tags inside loops -/

theorem Scope.Reached.after {filters : List (List Char)} {s : Scope} (hs : Scope.Reached filters s)
    (tags : List (List Char)) : Scope.Reached filters (s.after tags) := by
  induction tags generalizing s with
  | nil => exact hs
  | cons tag rest ih =>
    refine ih ?_
    rcases htag : s.tag? tag with _ | ⟨text, s'⟩
    · rw [Scope.behind_of_none (Option.map_eq_none_iff.2 htag)]
      exact hs
    · rw [Scope.behind_of_some htag]
      exact .tag hs htag

/-- What a tag with leading dots reads off the element named `dot`: it becomes a comment, or a body
with its action in it; the action is one without leading dots outside all loops; its tree keeps its
grouping; and a name behind a dot leads to the field of the element. -/
structure ReadsElement (s : Scope) (dot tag text : List Char) : Prop where
  becomes : (∃ rest, text = '{' :: '#' :: rest) ∨
    ∃ tokens body left right, Scope.tagTokens? tag = some tokens ∧ s.BodyOf tokens body ∧
      text = body.text left right
  action : ∀ p inner, s.actionPipeline? tag = some p → s.stages? none p = some inner →
    s.outside.stages? none (undotted dot p) = some inner
  grouping : ∀ p f, s.actionPipeline? tag = some p → s.pipedForm? none p = some f →
    f.Kept = true → KeepsGrouping f text
  field : ∀ name, isIdentifier name = true → String.ofList (dot ++ '.' :: name) ∉ loopStates →
    s.wordForm? ('.' :: name) = some (.ref (dot ++ '.' :: name)) ∧
      LeadsToElement dot (dot ++ '.' :: name) (fieldOf? name)

/-- An expression comes to the same at every part that rendering reaches, inside loops too, as in
front of all parts, unless a name that it asks for is bound on the way. -/
def Steady (e : Expr) : Prop :=
  ∀ (c : Context) (nodes : List Node) (fs gs : Frames) (node : Node), Visits c nodes fs node gs →
    (∀ reference ∈ e.references, Unbound c nodes fs reference) → e.Same c fs gs

theorem steady (e : Expr) : Steady e :=
  fun _ _ _ _ _ hvisits hunbound => e.same_of_visits hvisits hunbound

/-- What a tag with leading dots reads when they are dropped: a name behind a dot stays without it
and leads to the entry of the namespace, unless it is the name of a dump of all variables, which is
not modelled here; and what the tag is read as comes to the same inside loops as outside. -/
structure ReadsEntries (tag text : List Char) : Prop where
  dropped : ∀ front name back, LeadingDot tag front (name ++ back) → isIdentifier name = true →
    text = stripDots true front ++ (name ++ stripDots false back)
  entry : ∀ name, isIdentifier name = true → name ≠ root → name ≠ "__tera_context".toList →
    LeadsToEntry name (String.ofList name)
  shown : ∀ rest trim e rest', readDisplay (text ++ rest) = some (.display trim e, rest') → Steady e
  assigned : ∀ rest trim name e rest',
    readAssign "set" false (text ++ rest) = some (.assign trim false name e, rest') → Steady e
  decided : ∀ word ∈ ["if", "elif"], ∀ fuel place rest trim e parts rest',
    readBranch (fuel + 1) place word (text ++ rest) = some ((trim, e, parts), rest') → Steady e
  looped : ∀ fuel rest start key item source body empty stop rest',
    readLoop (fuel + 1) (text ++ rest)
      = some (.loop start key item source body empty stop, rest') → Steady source

section Loops

variable {filters : List (List Char)} {s s' : Scope} {dot tag text : List Char}

theorem readsElement (hs : Scope.Reached filters s) (hdot : s.dot? = some dot)
    (htag : s.tag? tag = some (text, s')) : ReadsElement s dot tag text := by
  have hident : isIdentifier dot = true := hs.sound.dot? hdot
  refine ⟨Scope.tag?_cases htag, ?_, ?_, ?_⟩
  · intro p inner _ hinner
    exact Scope.stages?_undotted hident hdot p none inner hinner
  · intro p f hp hf hkept
    exact Scope.keepsGrouping_of_pipedForm? hs htag hp hf hkept
  · intro name hname hstate
    refine ⟨?_, leadsToElement_field hident hname hstate⟩
    have hword : s.word? ('.' :: name) = some (dot ++ '.' :: name) := by
      rw [Scope.word?_dot (isPath_of_isIdentifier hname), hdot]
    unfold Scope.wordForm?
    rw [hword]
    rfl

theorem readsEntries (tag : List Char) : ReadsEntries tag (stripDots true tag) where
  dropped _ _ _ hleading hname := stripDots_of_leadingDot hleading hname
  entry _ hname hroot _ := leadsToEntry hname hroot
  shown _ _ e _ _ := steady e
  assigned _ _ _ e _ _ := steady e
  decided _ _ _ _ _ _ e _ _ _ := steady e
  looped _ _ _ _ _ source _ _ _ _ _ := steady source

/-- **Leading dots inside a loop.**  Behind some pieces of a template, where `dot` is the element of
the innermost loop:

* a tag that is translated reads that element, at every depth of its action;
* a tag that is not becomes what it becomes outside all loops, and reads the namespace;
* so does every condition of the template language on a leading dot, which in dot style would be
  one on the element. -/
theorem dots_in_loops {front : List Piece} (hs : Scope.after { filters } (tagsOf front) = s)
    (hdot : s.dot? = some dot) (tag : List Char) (rest : List Piece) :
    (∀ text s', s.tag? tag = some (text, s') →
      normalizePieces { filters } (front ++ .tag tag :: rest)
          = normalizePieces { filters } front ++ (text ++ normalizePieces s' rest) ∧
        ReadsElement s dot tag text) ∧
    (s.tag? tag = none →
      normalizePieces { filters } (front ++ .tag tag :: rest)
          = normalizePieces { filters } front ++ (stripDots true tag ++ normalizePieces s rest) ∧
        ReadsEntries tag (stripDots true tag)) ∧
    ∀ name, isIdentifier name = true → (Form.ref name).Kept = true →
      s.tag? (plainCondition name) = none ∧
        KeepsGrouping (.ref name) (stripDots true (plainCondition name)) := by
  have hreached : Scope.Reached filters s := hs ▸ Scope.Reached.start.after (tagsOf front)
  refine ⟨fun text s' htag => ⟨?_, readsElement hreached hdot htag⟩, fun hnone => ⟨?_,
    readsEntries tag⟩, fun name hname hkept => ⟨?_, keepsGrouping_plainCondition hname hkept⟩⟩
  · rw [normalizePieces_append, hs, normalizePieces, htag]
  · rw [normalizePieces_append, hs, normalizePieces, hnone]
  · exact s.tag?_eq_none fun hstart => by
      obtain ⟨rest, hrest⟩ := hstart
      cases hrest

end Loops

/-! ### A field and an entry of one name -/

/-- A loop over numbers. -/
def numbersTag : List Char := "\x7b\x7b range .xs \x7d\x7d".toList

/-- The scope inside it. -/
def numbersScope : Scope := { filters := [], blocks := [.loop "__it1".toList] }

/-- A field of its element. -/
def fieldTag : List Char := "\x7b\x7b .n \x7d\x7d".toList

/-- A sum, which is not translated. -/
def sumTag : List Char := "\x7b\x7b .n + 1 \x7d\x7d".toList

/-- A namespace with an entry and an element of a list under one name. -/
def numbers : Namespace :=
  [("n", .num (.int 10)), ("xs", .arr [.obj [("n", .num (.int 1))]])]

/-- The context of a template in this namespace. -/
def numbersContext : Context where
  vars := Fields.insert (String.ofList root) (.obj numbers) numbers
  filter? := Filter.builtin?

/-- The loop at its element. -/
def firstNumber : Cursor := .ofEntry none "__it1" 1 0 "" (.obj [("n", .num (.int 1))])

/-- The expression that a text shows. -/
def readShown? (text : List Char) : Option (Trim × Expr × List Char) :=
  match readDisplay text with
  | some (.display trim e, rest) => some (trim, e, rest)
  | _ => none

theorem readDisplay_of_readShown? {text rest : List Char} {trim : Trim} {e : Expr}
    (h : readShown? text = some (trim, e, rest)) :
    readDisplay text = some (.display trim e, rest) := by
  unfold readShown? at h
  split at h
  · next hread =>
    cases h
    exact hread
  · cases h

/-- In the first turn `.n` is the field of the element, and `.n + 1` is one more than the entry. -/
theorem dots_in_loops_of_numbers :
    (∃ text, numbersScope.tag? fieldTag = some (text, numbersScope) ∧
      KeepsGrouping (.ref "__it1.n".toList) text ∧
      (Form.ref "__it1.n".toList).outcome numbersContext [{ cursor := some firstNumber }, {}]
        = .value (.num (.int 1))) ∧
    (numbersScope.tag? sumTag = none ∧
      ∃ trim e, readShown? (stripDots true sumTag ++ []) = some (trim, e, []) ∧
        (evalExpr numbersContext [{ cursor := some firstNumber }, {}] e).map Value.shown
          = some "11") ∧
    KeepsGrouping (.ref ['n']) (stripDots true (plainCondition ['n'])) := by
  have hopen : ({ filters := [] } : Scope).tag? numbersTag
      = some ("\x7b% for __it1 in xs %\x7d".toList, numbersScope) :=
    Scope.tag?_of_becomes? (by decide +kernel)
  have hs : Scope.after { filters := [] } (tagsOf [.tag numbersTag]) = numbersScope := by
    rw [tagsOf_tag, Scope.after_cons, Scope.behind_of_some hopen]
    rfl
  have hdot : numbersScope.dot? = some "__it1".toList := by decide
  have hfieldTag : numbersScope.tag? fieldTag
      = some ("\x7b\x7b __it1.n \x7d\x7d".toList, numbersScope) :=
    Scope.tag?_of_becomes? (by decide +kernel)
  have hsumTag : numbersScope.tag? sumTag = none :=
    Option.isNone_iff_eq_none.1 (by decide +kernel)
  obtain ⟨hfield, -, -⟩ := dots_in_loops hs hdot fieldTag []
  obtain ⟨-, hsum, hcondition⟩ := dots_in_loops hs hdot sumTag []
  obtain ⟨-, helement⟩ := hfield _ _ hfieldTag
  obtain ⟨-, hentries⟩ := hsum hsumTag
  obtain ⟨hword, hleads⟩ := helement.field ['n'] (by decide) (by decide +kernel)
  refine ⟨⟨_, hfieldTag, ?_, ?_⟩, ⟨hsumTag, ?_⟩,
    (hcondition ['n'] (by decide) (by decide +kernel)).2⟩
  · have haction : numbersScope.actionPipeline? fieldTag = some [[.word ".n".toList]] := by
      have htokens : (Scope.tagTokens? fieldTag).bind numbersScope.actionTokens?
          = some [.word ".n".toList] := by decide +kernel
      exact Scope.actionPipeline?_of_tokens htokens
    have hform : numbersScope.pipedForm? none [[.word ".n".toList]]
        = some (.ref "__it1.n".toList) := by
      show (numbersScope.wordForm? ('.' :: ['n'])).bind (fun f => some f) = _
      rw [hword]
      rfl
    exact helement.grouping _ _ haction hform (by decide +kernel)
  · exact hleads numbersContext firstNumber [.text []] (.text []) [{}] _ _ (by decide +kernel)
      (fun _ hkey => by cases hkey) .here nofun rfl
  · have hread : (readShown? (stripDots true sumTag ++ [])).map (fun (_, e, rest) =>
        (e.references, rest, (evalExpr numbersContext [{}] e).map Value.shown))
          = some ([['n']], [], some "11") := by decide +kernel
    obtain ⟨⟨trim, e, rest⟩, hshown, heq⟩ := Option.map_eq_some_iff.1 hread
    obtain ⟨hreferences, rfl, hvalue⟩ : e.references = [['n']] ∧ rest = [] ∧
        (evalExpr numbersContext [{}] e).map Value.shown = some "11" := by
      simpa only [Prod.mk.injEq] using heq
    refine ⟨trim, e, hshown, ?_⟩
    have hturn : (evalExpr numbersContext [{}] (.ofTerm (.ref "xs".toList))).bind
        (loopEntries? false) = some [("", .obj [("n", .num (.int 1))])] := by cbv
    have hvisits : Visits numbersContext
        [.loop {} none "__it1" (.ofTerm (.ref "xs".toList)) [.display trim e] none {}] [{}]
        (.display trim e) [{ cursor := some firstNumber }, {}] :=
      .turn hturn .here .here
    have hsame : e.Same numbersContext [{}] [{ cursor := some firstNumber }, {}] := by
      refine hentries.shown [] trim e [] (readDisplay_of_readShown? hshown) _ _ _ _ _ hvisits ?_
      intro reference hreference path hpath
      rw [hreferences, List.mem_singleton] at hreference
      rw [hreference, Frames.asked_of_plain _ _ _ (by decide), List.mem_singleton] at hpath
      rw [hpath]
      have hbound : boundIn [.loop {} none "__it1" (.ofTerm (.ref "xs".toList)) [.display trim e]
          none {}] = ["__it1"] := rfl
      rw [hbound]
      exact ⟨by unfold Spared; decide +kernel, by decide +kernel⟩
    rw [hsame.value]
    exact hvalue

/-- A loop whose body refers to a name behind a leading dot. -/
def inRange (front : String) (name : List Char) (back : String) : String :=
  String.ofList ("\x7b\x7b range .xs \x7d\x7d".toList ++ front.toList ++ '.' :: (name
    ++ back.toList ++ "\x7b\x7b end \x7d\x7d".toList))

/-- Within one loop the same condition holds in one form and not in the other, and a sum is off the
entry. -/
theorem tags_differ_in_loops :
    (¬ ∀ (vars : Namespace) (name : List Char), isIdentifier name = true →
      interpolate [] vars (inRange "\x7b% if " name " %\x7dy\x7b% else %\x7dn\x7b% endif %\x7d")
        = interpolate [] vars
          (inRange "\x7b\x7b if " name " \x7d\x7dy\x7b\x7b else \x7d\x7dn\x7b\x7b end \x7d\x7d")) ∧
    ¬ ∀ (vars : Namespace) (name : List Char) (item : Value) (n : Int), isIdentifier name = true →
      Fields.get? "xs" vars = some (.arr [item]) → fieldOf? name item = some (.num (.int n)) →
        interpolate [] vars (inRange "\x7b\x7b " name " + 1 \x7d\x7d")
          = (Value.num (.int (n + 1))).shown := by
  refine ⟨fun hclaim => ?_, fun hclaim => ?_⟩
  · have hsame := hclaim [("active", .bool true), ("xs", .arr [.obj [("active", .bool false)]])]
      "active".toList (by decide)
    have hplain : interpolate []
        [("active", .bool true), ("xs", .arr [.obj [("active", .bool false)]])]
        (inRange "\x7b% if " "active".toList " %\x7dy\x7b% else %\x7dn\x7b% endif %\x7d")
          = "y" := by decide +kernel
    have hdotted : interpolate []
        [("active", .bool true), ("xs", .arr [.obj [("active", .bool false)]])]
        (inRange "\x7b\x7b if " "active".toList
          " \x7d\x7dy\x7b\x7b else \x7d\x7dn\x7b\x7b end \x7d\x7d") = "n" := by decide +kernel
    rw [hplain, hdotted] at hsame
    exact absurd hsame (by decide)
  · have hsum := hclaim numbers ['n'] (.obj [("n", .num (.int 1))]) 1 (by decide) (by cbv) (by cbv)
    have hshown : interpolate [] numbers (inRange "\x7b\x7b " ['n'] " + 1 \x7d\x7d") = "11" := by
      decide +kernel
    rw [hshown] at hsum
    exact absurd hsum (by decide +kernel)

end Runbook.Template.Action
