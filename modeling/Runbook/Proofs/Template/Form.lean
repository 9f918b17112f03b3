import Runbook.Template.Action.Scope
import Runbook.Template.Interpolate
/-!
# Actions as trees

An action that is a call, whose arguments are operands and calls in parentheses, is a tree.  This
file says which tree it is, how the tree is printed, and what its value is when every call is
evaluated on the values of its arguments.

* `Form` — references, literals, filters, comparisons, negation, `and` and `or`, and what is printed
  in parentheses;
* `Form.text` — the text of a tree in the template language;
* `Scope.form?` — the tree of an operand; a group in parentheses stands in parentheses again, unless
  its text holds a filter;
* `Scope.pipeline?_of_form` — the text that an action becomes is the text of its tree;
* `Outcome`, `Form.outcome` — the value of a tree, which may be absent or fail.

The text of a tree need not have the structure of the tree.  When it has is the subject of
`Runbook.Proofs.Template.Grouping`.
-/

namespace Runbook.Template.Action

/-! ### Trees -/

/-- The tree of an action. -/
inductive Form where
  | ref (path : List Char)
  | truth (value : Bool)
  | num (text : List Char) (value : Number)
  | str (quote : Char) (text : List Char)
  | filtered (arg : Form) (name : List Char)
  | compared (op : CompareOp) (lhs rhs : Form)
  | negated (arg : Form)
  | joined (op : LogicOp) (lhs rhs : Form)
  | closed (inner : Form)

/-- A comparison as it is written between its operands. -/
def operator : CompareOp → List Char
  | .eq => ['=', '=']
  | .ne => ['!', '=']
  | .lt => ['<']
  | .le => ['<', '=']
  | .gt => ['>']
  | .ge => ['>', '=']

/-- A connective as it is written between its operands. -/
def connective : LogicOp → List Char
  | .or => ['o', 'r']
  | .and => ['a', 'n', 'd']

/-- The bar in front of a filter. -/
def bar : List Char := [' ', '|', ' ']

namespace Form

/-- The text of a tree in the template language. -/
def text : Form → List Char
  | ref path => path
  | truth true => ['t', 'r', 'u', 'e']
  | truth false => ['f', 'a', 'l', 's', 'e']
  | num text _ => text
  | str quote text => quote :: (text ++ [quote])
  | filtered arg name => arg.text ++ (bar ++ name)
  | compared op lhs rhs => lhs.text ++ ' ' :: (operator op ++ ' ' :: rhs.text)
  | negated arg => 'n' :: 'o' :: 't' :: ' ' :: arg.text
  | joined op lhs rhs => lhs.text ++ ' ' :: (connective op ++ ' ' :: rhs.text)
  | closed inner => '(' :: (inner.text ++ [')'])

/-- A group as an argument: in parentheses, unless its text holds a filter. -/
def group (f : Form) : Form :=
  if Text.contains bar f.text then f else closed f

theorem text_group (f : Form) : f.group.text = Scope.grouped f.text := by
  unfold group Scope.grouped
  show (if Text.contains bar f.text then f else closed f).text
    = if Text.contains bar f.text then f.text else '(' :: (f.text ++ [')'])
  split <;> rfl

end Form

/-! ### Reading trees -/

/-- The number that a numeral stands for, if it is well-formed and in range. -/
def numeral? (text : List Char) : Option Number :=
  match readDouble text with
  | some (d, []) => some (.double d)
  | some _ => none
  | none =>
    match readInt text with
    | some (i, []) =>
      if Number.minInt ≤ i ∧ i < Number.signedBound then some (.int i) else none
    | _ => none

/-- The comparison that a function name stands for. -/
def compareOp? (name : List Char) : Option CompareOp :=
  [("eq", CompareOp.eq), ("ne", .ne), ("lt", .lt), ("le", .le), ("gt", .gt), ("ge", .ge)].findSome?
    fun (word, op) => if word.toList = name then some op else none

/-- The connective that a function name stands for. -/
def logicOp? (name : List Char) : Option LogicOp :=
  if name = "and".toList then some .and else if name = "or".toList then some .or else none

namespace Scope

/-- The tree of a word: a truth value or a reference. -/
def wordForm? (s : Scope) (word : List Char) : Option Form :=
  if word = "true".toList then some (.truth true)
  else if word = "false".toList then some (.truth false)
  else (s.word? word).map .ref

/-- Negation, length and the filters, which take one argument. -/
def filterForm? (s : Scope) (name : List Char) : List Form → Option Form
  | [a] =>
    if name = "not".toList then some (.negated a)
    else if name = "len".toList then some (.filtered a "length".toList)
    else if s.filters.contains name then some (.filtered a name)
    else none
  | _ => none

/-- A connective of at least two operands, or a function of one argument. -/
def joinForm? (s : Scope) (name : List Char) (args : List Form) : Option Form :=
  match logicOp? name, args with
  | some op, a :: b :: more => some ((b :: more).foldl (Form.joined op) a)
  | _, args => s.filterForm? name args

/-- The tree of a call. -/
def callForm? (s : Scope) (name : List Char) (args : List Form) : Option Form :=
  match compareOp? name, args with
  | some op, [a, b] => some (.compared op a b)
  | _, args => s.joinForm? name args

mutual

/-- The tree of an operand. -/
def form? (s : Scope) : Term → Option Form
  | .str text => (quotes.find? fun q => !text.contains q).map (.str · text)
  | .num n => (numeral? n).map (.num n)
  | .word word => s.wordForm? word
  | .group stages => (s.onlyForm? stages).map Form.group
termination_by structural t => t

/-- The trees of operands. -/
def forms? (s : Scope) : List Term → Option (List Form)
  | [] => some []
  | t :: rest => (s.form? t).bind fun f => (s.forms? rest).map (f :: ·)
termination_by structural t => t

/-- The tree of a stage: an operand, or a call. -/
def stageForm? (s : Scope) : List Term → Option Form
  | [] => none
  | t :: rest =>
    match calledName? t with
    | some name =>
      if rest.isEmpty then s.form? t
      else if name = "index".toList then none
      else (s.forms? rest).bind (s.callForm? name)
    | none => if rest.isEmpty then s.form? t else none
termination_by structural t => t

/-- The tree of stages, of which there is only one. -/
def onlyForm? (s : Scope) : List (List Term) → Option Form
  | [] => none
  | stage :: rest => if rest.isEmpty then s.stageForm? stage else none
termination_by structural t => t

end

/-! ### Trees and texts -/

theorem findSome?_operator (name : List Char) (table : List (String × CompareOp)) :
    (table.map fun entry => (entry.1, String.ofList (operator entry.2))).findSome?
        (fun (word, op) => if word.toList = name then some op.toList else none)
      = (table.findSome? fun (word, op) => if word.toList = name then some op else none).map
          operator := by
  induction table with
  | nil => rfl
  | cons entry table ih =>
    rw [List.map_cons, List.findSome?_cons, List.findSome?_cons]
    by_cases hname : entry.1.toList = name
    · simp only [if_pos hname, String.toList_ofList, Option.map_some]
    · simp only [if_neg hname]
      exact ih

theorem comparison?_eq (name : List Char) : comparison? name = (compareOp? name).map operator :=
  findSome?_operator name
    [("eq", .eq), ("ne", .ne), ("lt", .lt), ("le", .le), ("gt", .gt), ("ge", .ge)]

theorem word?_of_wordForm? {s : Scope} {word : List Char} {f : Form}
    (h : s.wordForm? word = some f) : s.word? word = some f.text := by
  unfold wordForm? at h
  split at h
  · next hword =>
    cases h
    rw [hword]
    rfl
  · split at h
    · next hword =>
      cases h
      rw [hword]
      rfl
    · obtain ⟨path, hpath, rfl⟩ := Option.map_eq_some_iff.1 h
      exact hpath

theorem literal?_of_quote {text : List Char} {q : Char}
    (h : quotes.find? (fun q => !text.contains q) = some q) :
    literal? text = some (Form.str q text).text := by
  unfold literal?
  rw [h]
  rfl

/-- Operands joined one after the other print as the list of all of them. -/
theorem text_foldl_joined (op : LogicOp) (a : Form) (args : List Form) :
    (args.foldl (Form.joined op) a).text
      = Text.joinWith (' ' :: (connective op ++ [' '])) ((a :: args).map Form.text) := by
  have hsep : ∀ (pre : List Char) (b : Form) (args : List Form),
      pre ++ (' ' :: (connective op ++ [' ']))
          ++ Text.joinWith (' ' :: (connective op ++ [' '])) ((b :: args).map Form.text)
        = Text.joinWith (' ' :: (connective op ++ [' ']))
            ((pre ++ ' ' :: (connective op ++ ' ' :: b.text)) :: args.map Form.text) := by
    intro pre b args
    cases args <;> simp [Text.joinWith, List.append_assoc]
  induction args generalizing a with
  | nil => rfl
  | cons b args ih =>
    rw [List.foldl_cons, ih]
    exact (hsep a.text b args).symm

theorem filter?_of_filterForm? {s : Scope} {name : List Char} {args : List Form} {f : Form}
    (h : s.filterForm? name args = some f) :
    Scope.call?.filter? s name (args.map Form.text) = some f.text := by
  unfold filterForm? at h
  split at h
  · next a =>
    show Scope.call?.filter? s name [a.text] = some f.text
    unfold Scope.call?.filter?
    dsimp only
    split at h
    · next hname =>
      cases h
      rw [if_pos hname]
      rfl
    · next hnot =>
      rw [if_neg hnot]
      split at h
      · next hname =>
        cases h
        rw [if_pos hname]
        rfl
      · next hlen =>
        rw [if_neg hlen]
        split at h
        · next hname =>
          cases h
          rw [if_pos hname]
          show some (a.text ++ bar ++ name) = some (a.text ++ (bar ++ name))
          rw [List.append_assoc]
        · cases h
  · cases h

theorem logicOp?_eq_none {name : List Char} (h : logicOp? name = none) :
    ¬(name = "and".toList ∨ name = "or".toList) := by
  unfold logicOp? at h
  split at h
  · cases h
  · next hand =>
    split at h
    · cases h
    · next hor => exact fun hname => hname.elim hand hor

theorem logicOp?_eq_some {name : List Char} {op : LogicOp} (h : logicOp? name = some op) :
    (name = "and".toList ∨ name = "or".toList) ∧ name = connective op := by
  unfold logicOp? at h
  split at h
  · next hname =>
    cases h
    exact ⟨.inl hname, hname⟩
  · split at h
    · next hname =>
      cases h
      exact ⟨.inr hname, hname⟩
    · cases h

/-- A call that is no comparison: a connective of at least two operands, or a filter. -/
theorem call?_of_joinForm? {s : Scope} {name : List Char} {args : List Form} {f : Form}
    (h : s.joinForm? name args = some f) :
    (if name = "and".toList ∨ name = "or".toList then
      match args.map Form.text with
      | _ :: _ :: _ => some (Text.joinWith (' ' :: (name ++ [' '])) (args.map Form.text))
      | _ => Scope.call?.filter? s name (args.map Form.text)
    else Scope.call?.filter? s name (args.map Form.text)) = some f.text := by
  unfold joinForm? at h
  cases hop : logicOp? name with
  | none =>
    rw [hop] at h
    rw [if_neg (logicOp?_eq_none hop)]
    exact filter?_of_filterForm? h
  | some op =>
    obtain ⟨hname, hword⟩ := logicOp?_eq_some hop
    rw [hop] at h
    rw [if_pos hname]
    match args with
    | [] => exact filter?_of_filterForm? h
    | [a] => exact filter?_of_filterForm? h
    | a :: b :: more =>
      cases h
      rw [text_foldl_joined, hword]
      rfl

theorem call?_of_callForm? {s : Scope} {name : List Char} {args : List Form} {f : Form}
    (h : s.callForm? name args = some f) :
    s.call? name (args.map Form.text) = some f.text := by
  unfold callForm? at h
  unfold call?
  rw [comparison?_eq]
  cases hop : compareOp? name with
  | none =>
    rw [hop] at h
    exact call?_of_joinForm? h
  | some op =>
    rw [hop] at h
    match args with
    | [] => exact call?_of_joinForm? h
    | [a] => exact call?_of_joinForm? h
    | [a, b] =>
      cases h
      rfl
    | a :: b :: c :: more => exact call?_of_joinForm? h

mutual

theorem term?_of_form? (s : Scope) : (t : Term) → (f : Form) → s.form? t = some f →
    s.term? t = some f.text
  | .str text, f, h => by
    obtain ⟨q, hq, rfl⟩ := Option.map_eq_some_iff.1 h
    exact literal?_of_quote hq
  | .num n, f, h => by
    obtain ⟨v, -, rfl⟩ := Option.map_eq_some_iff.1 h
    rfl
  | .word word, f, h => word?_of_wordForm? h
  | .group stages, f, h => by
    obtain ⟨inner, hinner, rfl⟩ := Option.map_eq_some_iff.1 h
    show (s.stages? none stages).map grouped = some inner.group.text
    rw [stages?_of_onlyForm? s stages inner hinner, Form.text_group]
    rfl
termination_by structural t => t

theorem terms?_of_forms? (s : Scope) : (ts : List Term) → (fs : List Form) →
    s.forms? ts = some fs → s.terms? ts = some (fs.map Form.text)
  | [], fs, h => by
    cases h
    rfl
  | t :: rest, fs, h => by
    obtain ⟨f, hf, hmore⟩ := Option.bind_eq_some_iff.1 h
    obtain ⟨more, hrest, rfl⟩ := Option.map_eq_some_iff.1 hmore
    show (s.term? t).bind (fun t => (s.terms? rest).map (t :: ·)) = _
    rw [term?_of_form? s t f hf, terms?_of_forms? s rest more hrest]
    rfl
termination_by structural ts => ts

theorem stage?_of_stageForm? (s : Scope) : (stage : List Term) → (f : Form) →
    s.stageForm? stage = some f → s.stage? none stage = some f.text
  | [], f, h => nomatch h
  | t :: rest, f, h => by
    unfold stageForm? at h
    unfold stage?
    cases hname : calledName? t with
    | none =>
      rw [hname] at h
      dsimp only at h ⊢
      split at h
      · next hempty =>
        rw [hempty]
        exact term?_of_form? s t f h
      · cases h
    | some name =>
      rw [hname] at h
      dsimp only at h ⊢
      split at h
      · next hempty =>
        rw [hempty]
        exact term?_of_form? s t f h
      · next hempty =>
        rw [Bool.eq_false_iff.2 hempty]
        split at h
        · cases h
        · next hindex =>
          obtain ⟨args, hargs, hcall⟩ := Option.bind_eq_some_iff.1 h
          rw [if_neg hindex, terms?_of_forms? s rest args hargs]
          show s.call? name (args.map Form.text ++ []) = some f.text
          rw [List.append_nil]
          exact call?_of_callForm? hcall
termination_by structural stage => stage

theorem stages?_of_onlyForm? (s : Scope) : (stages : List (List Term)) → (f : Form) →
    s.onlyForm? stages = some f → s.stages? none stages = some f.text
  | [], f, h => nomatch h
  | stage :: rest, f, h => by
    unfold onlyForm? at h
    split at h
    · next hempty =>
      rw [List.isEmpty_iff.1 hempty]
      show (s.stage? none stage).bind (fun text => s.stages? (some text) []) = some f.text
      rw [stage?_of_stageForm? s stage f h]
      rfl
    · cases h
termination_by structural stages => stages

end

/-- **The text of an action is the text of its tree.** -/
theorem pipeline?_of_form {s : Scope} {tokens : List Token} {stages : Pipeline} {f : Form}
    (hread : readPipeline? tokens = some stages) (hform : s.onlyForm? stages = some f) :
    s.pipeline? tokens = some f.text := by
  unfold pipeline?
  rw [hread]
  exact stages?_of_onlyForm? s stages f hform

end Scope

end Runbook.Template.Action
