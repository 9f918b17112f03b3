import Runbook.Proofs.Template.Outcome
import Runbook.Proofs.Text.Cutting
import Runbook.Proofs.Text.Encoding
/-!
# What trees of actions are made of

* `exists_parts_of_isPath` — a path is an identifier and further parts behind dots;
* `IsReference` — a path with subscripts;
* `Scope.MakesBody` — how the tokens of a tag make what it becomes;
* `Scope.Sound` — the elements of open loops are named by identifiers, behind each tag too;
* `Form.Printed` — references, numerals, quotes and filter names are well-formed, and no group in
  parentheses opens with a negation unless it is one;
* `Scope.printed_of_stageForm?` — the tree of an action is such a tree.
-/

namespace Runbook.Template.Action

/-! ### Paths -/

/-- The text of a path: its first part, and the others behind dots. -/
theorem eq_of_splitBy {cs first : List Char} {parts : List (List Char)}
    (h : Text.splitBy (· == '.') cs = first :: parts) :
    cs = first ++ parts.flatMap fun part => '.' :: part := by
  induction cs generalizing first parts with
  | nil =>
    cases h
    rfl
  | cons c cs ih =>
    rw [Text.splitBy] at h
    cases hsplit : Text.splitBy (· == '.') cs with
    | nil => exact absurd hsplit (Text.splitBy_ne_nil _ cs)
    | cons piece pieces =>
      rw [hsplit] at h
      dsimp only at h
      rw [ih hsplit]
      split at h
      · next hdot =>
        cases h
        rw [beq_iff_eq.1 hdot]
        rfl
      · cases h
        rfl

/-- A dot belongs to no name. -/
theorem beq_dot_of_isIdentChar {c : Char} (h : Text.isIdentChar c = true) : (c == '.') = false := by
  rw [beq_eq_false_iff_ne]
  rintro rfl
  cases h

theorem splitBy_of_all {cs : List Char} (h : cs.all Text.isIdentChar = true) :
    Text.splitBy (· == '.') cs = [cs] := by
  induction cs with
  | nil => rfl
  | cons c cs ih =>
    rw [List.all_cons, Bool.and_eq_true] at h
    rw [Text.splitBy, ih h.2]
    simp only [beq_dot_of_isIdentChar h.1, Bool.false_eq_true, if_false]

/-- Where a text is cut, there are no dots in its pieces. -/
theorem splitBy_append {first : List Char} (h : first.all Text.isIdentChar = true)
    (rest : List Char) :
    Text.splitBy (· == '.') (first ++ '.' :: rest)
      = first :: Text.splitBy (· == '.') rest := by
  rw [Text.splitBy_append_cons rfl, splitBy_of_all h]
  rfl

theorem isIdentChar_of_isDigit {c : Char} (h : c.isDigit = true) : Text.isIdentChar c = true := by
  unfold Text.isIdentChar Char.isAlphanum
  rw [h, Bool.or_true, Bool.true_or]

theorem isIdentChar_of_isIdentStart {c : Char} (h : Text.isIdentStart c = true) :
    Text.isIdentChar c = true := by
  unfold Text.isIdentStart at h
  unfold Text.isIdentChar Char.isAlphanum
  rw [Bool.or_eq_true] at h ⊢
  rw [Bool.or_eq_true]
  exact h.imp_left .inl

theorem all_of_isIdentifier {cs : List Char} (h : Text.isIdentifier cs = true) :
    cs.all Text.isIdentChar = true := by
  cases cs with
  | nil => rfl
  | cons c cs =>
    obtain ⟨hc, hcs⟩ := Bool.and_eq_true_iff.1 h
    rw [List.all_cons, isIdentChar_of_isIdentStart hc, hcs]
    rfl

theorem isPath_of_isIdentifier {cs : List Char} (h : Text.isIdentifier cs = true) :
    isPath cs = true := by
  unfold isPath
  rw [splitBy_of_all (all_of_isIdentifier h)]
  simp [h]

/-- A path behind a name. -/
theorem isPath_append {name path : List Char} (hname : Text.isIdentifier name = true)
    (hpath : isPath path = true) : isPath (name ++ '.' :: path) = true := by
  unfold isPath at hpath ⊢
  rw [splitBy_append (all_of_isIdentifier hname)]
  cases hsplit : Text.splitBy (· == '.') path with
  | nil =>
    rw [hsplit] at hpath
    cases hpath
  | cons first parts =>
    rw [hsplit] at hpath
    dsimp only at hpath ⊢
    obtain ⟨hfirst, hparts⟩ := Bool.and_eq_true_iff.1 hpath
    have hpart : isPathPart first = true := by
      cases first with
      | nil => cases hfirst
      | cons c cs => exact all_of_isIdentifier hfirst
    rw [List.all_cons, hname, hpart, hparts]
    rfl

/-- A path is an identifier and further parts behind dots. -/
theorem exists_parts_of_isPath {cs : List Char} (h : isPath cs = true) :
    ∃ (first : List Char) (parts : List (List Char)),
      cs = first ++ parts.flatMap (fun part => '.' :: part) ∧
      Text.isIdentifier first = true ∧ ∀ part ∈ parts, isPathPart part = true := by
  unfold isPath at h
  cases hsplit : Text.splitBy (· == '.') cs with
  | nil =>
    rw [hsplit] at h
    cases h
  | cons first parts =>
    rw [hsplit] at h
    obtain ⟨hfirst, hparts⟩ := Bool.and_eq_true_iff.1 h
    exact ⟨first, parts, eq_of_splitBy hsplit, hfirst, List.all_eq_true.1 hparts⟩

/-- One more part behind a path. -/
theorem isPath_snoc {path part : List Char} (hpath : isPath path = true)
    (hpart : isPathPart part = true) : isPath (path ++ '.' :: part) = true := by
  obtain ⟨first, parts, rfl, hfirst, hparts⟩ := exists_parts_of_isPath hpath
  have hall : part.all Text.isIdentChar = true := (Bool.and_eq_true_iff.1 hpart).2
  have hsplit : ∀ (parts : List (List Char)) (first : List Char),
      first.all Text.isIdentChar = true → (∀ p ∈ parts, isPathPart p = true) →
        Text.splitBy (· == '.') (first ++ parts.flatMap (fun p => '.' :: p) ++ '.' :: part)
          = first :: (parts ++ [part]) := by
    intro parts
    induction parts with
    | nil =>
      intro first hfirst _
      rw [List.flatMap_nil, List.append_nil, splitBy_append hfirst, splitBy_of_all hall]
      rfl
    | cons next more ih =>
      intro first hfirst hmore
      have hnext := (Bool.and_eq_true_iff.1 (hmore next List.mem_cons_self)).2
      rw [List.flatMap_cons, List.append_assoc, List.append_assoc, List.cons_append,
        splitBy_append hfirst, ← List.append_assoc,
        ih next hnext fun p hp => hmore p (List.mem_cons_of_mem _ hp)]
      rfl
  unfold isPath
  rw [hsplit parts first (all_of_isIdentifier hfirst) hparts]
  simp only [List.all_append, List.all_cons, List.all_nil, Bool.and_true, Bool.and_eq_true]
  exact ⟨hfirst, List.all_eq_true.2 hparts, hpart⟩

/-! ### Subscripts -/

/-- What stands between the brackets of a subscript: a quoted string, or a path. -/
def IsKey (key : List Char) : Prop :=
  isPath key = true ∨ ∃ q ∈ quotes, ∃ text, text.contains q = false ∧ key = q :: (text ++ [q])

/-- Subscripts, and the parts behind dots that follow each of them. -/
def subscripts (keys : List (List Char × List (List Char))) : List Char :=
  keys.flatMap fun (key, parts) => '[' :: (key ++ ']' :: parts.flatMap fun part => '.' :: part)

/-- A reference: a path with subscripts. -/
def IsReference (cs : List Char) : Prop :=
  ∃ (path : List Char) (keys : List (List Char × List (List Char))),
    cs = path ++ subscripts keys ∧ isPath path = true ∧
      ∀ entry ∈ keys, IsKey entry.1 ∧ ∀ part ∈ entry.2, isPathPart part = true

namespace IsReference

variable {cs : List Char}

theorem of_isPath (h : isPath cs = true) : IsReference cs :=
  ⟨cs, [], (List.append_nil cs).symm, h, fun _ hmem => absurd hmem List.not_mem_nil⟩

/-- One more subscript. -/
theorem subscript (h : IsReference cs) {key : List Char} (hkey : IsKey key) :
    IsReference (cs ++ '[' :: (key ++ [']'])) := by
  obtain ⟨path, keys, rfl, hpath, hkeys⟩ := h
  refine ⟨path, keys ++ [(key, [])], ?_, hpath, fun entry hmem => ?_⟩
  · simp [subscripts, List.flatMap_append]
  · rcases List.mem_append.1 hmem with hmem | hmem
    · exact hkeys entry hmem
    · rw [List.mem_singleton.1 hmem]
      exact ⟨hkey, fun part hpart => absurd hpart List.not_mem_nil⟩

/-- One more part behind a dot. -/
theorem part (h : IsReference cs) {part : List Char} (hpart : isPathPart part = true) :
    IsReference (cs ++ '.' :: part) := by
  obtain ⟨path, keys, rfl, hpath, hkeys⟩ := h
  rcases List.eq_nil_or_concat keys with rfl | ⟨front, ⟨key, parts⟩, rfl⟩
  · rw [show path ++ subscripts [] = path from List.append_nil path]
    exact of_isPath (isPath_snoc hpath hpart)
  · rw [List.concat_eq_append] at hkeys ⊢
    refine ⟨path, front ++ [(key, parts ++ [part])], ?_, hpath, fun entry hmem => ?_⟩
    · simp [subscripts, List.flatMap_append]
    · rcases List.mem_append.1 hmem with hmem | hmem
      · exact hkeys entry (List.mem_append_left _ hmem)
      · obtain ⟨hkey, hparts⟩ := hkeys (key, parts) (List.mem_append_right _ List.mem_cons_self)
        rw [List.mem_singleton.1 hmem]
        refine ⟨hkey, fun p hp => ?_⟩
        rcases List.mem_append.1 hp with hp | hp
        · exact hparts p hp
        · rw [List.mem_singleton.1 hp]
          exact hpart

/-- The name at the front of a reference, and how the reference goes on behind it. -/
theorem exists_name (h : IsReference cs) :
    ∃ name rest, cs = name ++ rest ∧ Text.isIdentifier name = true ∧
      (rest = [] ∨ ∃ c more, rest = c :: more ∧ (c = '.' ∨ c = '[')) := by
  obtain ⟨path, keys, rfl, hpath, -⟩ := h
  obtain ⟨first, parts, rfl, hfirst, -⟩ := exists_parts_of_isPath hpath
  refine ⟨first, _, List.append_assoc _ _ _, hfirst, ?_⟩
  cases parts with
  | cons part parts => exact .inr ⟨'.', _, rfl, .inl rfl⟩
  | nil =>
    cases keys with
    | nil => exact .inl rfl
    | cons entry keys => exact .inr ⟨'[', _, rfl, .inr rfl⟩

/-- A reference starts with a letter or an underscore. -/
theorem head (h : IsReference cs) : ∃ c more, cs = c :: more ∧ Text.isIdentStart c = true := by
  obtain ⟨name, rest, rfl, hname, -⟩ := h.exists_name
  cases name with
  | nil => cases hname
  | cons c name => exact ⟨c, _, rfl, (Bool.and_eq_true_iff.1 hname).1⟩

end IsReference

/-! ### Scopes -/

namespace Scope

/-- The elements of open loops are named by identifiers. -/
def Sound (s : Scope) : Prop :=
  ∀ dot, .loop dot ∈ s.blocks → Text.isIdentifier dot = true

theorem sound_of_nil (filters : List (List Char)) : Sound { filters } :=
  fun _ h => absurd h List.not_mem_nil

theorem Sound.dot? {s : Scope} (hs : s.Sound) {dot : List Char} (h : s.dot? = some dot) :
    Text.isIdentifier dot = true := by
  obtain ⟨block, hmem, hblock⟩ := List.exists_of_findSome?_eq_some h
  cases block with
  | cond => cases hblock
  | loop name =>
    cases hblock
    exact hs _ hmem

theorem isPath_of_path? {cs path : List Char} (h : path? cs = some path) :
    isPath path = true := by
  unfold path? at h
  split at h
  · next hpath =>
    cases h
    exact hpath
  · cases h

theorem eq_of_path? {cs path : List Char} (h : path? cs = some path) : path = cs := by
  unfold path? at h
  split at h
  · cases h
    rfl
  · cases h

/-- References are paths. -/
theorem Sound.word? {s : Scope} (hs : s.Sound) {word path : List Char}
    (h : s.word? word = some path) : isPath path = true := by
  have hroot : isPath root = true := by decide
  unfold Scope.word? at h
  split at h
  · cases h
    cases hdot : s.dot? with
    | none => exact hroot
    | some dot => exact isPath_of_isIdentifier (hs.dot? hdot)
  · cases h
    exact hroot
  · exact isPath_of_path? h
  · exact isPath_of_path? h
  · obtain ⟨rest, hrest, rfl⟩ := Option.map_eq_some_iff.1 h
    have hpath : isPath rest = true := isPath_of_path? hrest
    cases hdot : s.dot? with
    | none => exact hpath
    | some dot => exact isPath_append (hs.dot? hdot) hpath
  · split at h
    · cases h
    · exact isPath_of_path? h

theorem isIdentifier_of_declared? {word name : List Char} (h : declared? word = some name) :
    Text.isIdentifier name = true := by
  unfold declared? at h
  split at h
  · split at h
    · next hname =>
      cases h
      exact hname
    · cases h
  · cases h

theorem isIdentifier_numbered (n : Nat) :
    Text.isIdentifier ("__it".toList ++ (Text.natText n).toList) = true := by
  have hdigits : (Text.natText n).toList.all Text.isIdentChar = true := by
    rw [List.all_eq_true]
    intro c hc
    rw [Text.toList_natText] at hc
    exact isIdentChar_of_isDigit (Nat.isDigit_of_mem_toDigits (by decide) (by decide) hc)
  show (Text.isIdentStart '_' && (['_', 'i', 't'] ++ (Text.natText n).toList).all Text.isIdentChar)
    = true
  rw [List.all_append, hdigits]
  decide

/-- The names of a loop are identifiers. -/
theorem isIdentifier_of_loopNames? {s : Scope} {tokens rest : List Token}
    {names : List (List Char)} (h : loopNames? s tokens = some (names, rest)) :
    ∀ name ∈ names, Text.isIdentifier name = true := by
  unfold loopNames? at h
  split at h
  · obtain ⟨v, hv, he⟩ := Option.map_eq_some_iff.1 h
    cases he
    intro name hname
    rw [List.mem_singleton.1 hname]
    exact isIdentifier_of_declared? hv
  · obtain ⟨k, hk, hrest⟩ := Option.bind_eq_some_iff.1 h
    obtain ⟨v, hv, he⟩ := Option.map_eq_some_iff.1 hrest
    cases he
    intro name hname
    rcases List.mem_cons.1 hname with rfl | hname
    · exact isIdentifier_of_declared? hk
    · rw [List.mem_singleton.1 hname]
      exact isIdentifier_of_declared? hv
  · cases h
    intro name hname
    rw [List.mem_singleton.1 hname]
    exact isIdentifier_numbered _

theorem Sound.openLoop? {s s' : Scope} (hs : s.Sound) {tokens : List Token} {body : TagBody}
    (h : s.openLoop? tokens = some (body, s')) : s'.Sound := by
  obtain ⟨⟨names, rest⟩, hnames, h⟩ := Option.bind_eq_some_iff.1 h
  obtain ⟨text, -, h⟩ := Option.bind_eq_some_iff.1 h
  obtain ⟨dot, hdot, h⟩ := Option.map_eq_some_iff.1 h
  cases h
  intro name hmem
  rcases List.mem_cons.1 hmem with hname | hmem
  · cases hname
    exact isIdentifier_of_loopNames? hnames _ (List.mem_of_getLast? hdot)
  · exact hs name hmem

/-- Whether the first word of a tag opens a block or a branch, so that the action stands behind
it. -/
def OpensBlock (first : List Char) (rest : List Token) : Prop :=
  first = "if".toList ∨ (first = "else".toList ∧ (startsWith? "if" rest).isSome) ∨
    first = "range".toList

/-- How the tokens of a tag make its body and the scope behind it. -/
inductive MakesBody (s : Scope) (body : TagBody) (s' : Scope) : List Token → Prop where
  | opensCondition {rest : List Token} (h : s.openCondition? rest = some (body, s')) :
    MakesBody s body s' (.word "if".toList :: rest)
  | otherwise (h : some (.statement "else".toList, s) = some (body, s')) :
    MakesBody s body s' [.word "else".toList]
  | elseIf {rest : List Token} (hif : (startsWith? "if" rest).isSome)
    (h : s.elseIf? (rest.drop 1) = some (body, s')) :
    MakesBody s body s' (.word "else".toList :: rest)
  | closes (h : s.close? = some (body, s')) : MakesBody s body s' [.word "end".toList]
  | opensLoop {rest : List Token} (h : s.openLoop? rest = some (body, s')) :
    MakesBody s body s' (.word "range".toList :: rest)
  | declares {first : List Char} {rest : List Token}
    (hfirst : ¬ OpensBlock first (.declare :: rest))
    (h : s.declare? first rest = some (body, s')) :
    MakesBody s body s' (.word first :: .declare :: rest)
  | shows {tokens : List Token}
    (hfirst : ∀ first rest, tokens = .word first :: rest →
      ¬ OpensBlock first rest ∧ ∀ more, rest ≠ .declare :: more)
    (h : (s.pipeline? tokens).map (fun text => (TagBody.expression text, s)) = some (body, s')) :
    MakesBody s body s' tokens

/-- The body of a tag is made in one of these ways. -/
theorem makesBody_of_body? {s s' : Scope} {tokens : List Token} {body : TagBody}
    (h : s.body? tokens = some (body, s')) : MakesBody s body s' tokens := by
  unfold Scope.body? at h
  split at h
  · next first rest =>
    split at h
    · next hif =>
      rw [hif]
      exact .opensCondition h
    · next hif =>
      split at h
      · next helse =>
        rw [helse.1, helse.2]
        exact .otherwise h
      · split at h
        · next helse =>
          rw [helse.1]
          exact .elseIf helse.2 h
        · next helse =>
          split at h
          · next hend =>
            rw [hend.1, hend.2]
            exact .closes h
          · split at h
            · next hrange =>
              rw [hrange]
              exact .opensLoop h
            · next hrange =>
              have hfirst : ¬ OpensBlock first rest := by
                rintro (hword | hword | hword)
                · exact hif hword
                · exact helse hword
                · exact hrange hword
              split at h
              · exact .declares hfirst h
              · next hdeclare =>
                split at h
                · cases h
                · refine .shows (fun first' rest' heq => ?_) h
                  cases heq
                  exact ⟨hfirst, hdeclare⟩
  · next hword =>
    exact .shows (fun first rest heq => absurd heq (hword first rest)) h

/-- What a tag does to the open blocks keeps their names. -/
theorem Sound.body? {s s' : Scope} (hs : s.Sound) {tokens : List Token} {body : TagBody}
    (h : s.body? tokens = some (body, s')) : s'.Sound := by
  have hsame : ∀ {o : Option (List Char)} {make : List Char → TagBody},
      (o.map fun text => (make text, s)) = some (body, s') → s'.Sound := by
    intro o make ho
    obtain ⟨text, -, he⟩ := Option.map_eq_some_iff.1 ho
    cases he
    exact hs
  cases makesBody_of_body? h with
  | opensCondition hbody =>
    obtain ⟨text, -, he⟩ := Option.map_eq_some_iff.1 hbody
    cases he
    intro name hmem
    exact hs name ((List.mem_cons.1 hmem).resolve_left nofun)
  | otherwise hbody =>
    cases hbody
    exact hs
  | elseIf hif hbody =>
    unfold elseIf? at hbody
    split at hbody
    · exact hsame hbody
    · cases hbody
  | closes hbody =>
    unfold close? at hbody
    split at hbody
    · cases hbody
    all_goals
      next hblocks =>
      cases hbody
      intro name hmem
      exact hs name (hblocks ▸ List.mem_cons_of_mem _ hmem)
  | opensLoop hbody => exact hs.openLoop? hbody
  | declares hfirst hbody =>
    obtain ⟨name, -, hbody⟩ := Option.bind_eq_some_iff.1 hbody
    exact hsame hbody
  | shows hfirst hbody => exact hsame hbody

end Scope

/-! ### Trees -/

namespace Form

/-- The first operand of a tree stands without a negation in front of it. -/
def opensPlain : Form → Bool
  | filtered arg _ => arg.opensPlain
  | compared _ lhs _ => lhs.opensPlain
  | negated _ => false
  | joined _ lhs _ => lhs.opensPlain
  | _ => true

/-- The parts of a tree are well-formed. -/
def Printed : Form → Prop
  | ref path => IsReference path
  | truth _ => True
  | num text value => numeral? text = some value
  | str quote text => quote ∈ quotes ∧ text.contains quote = false
  | filtered arg name => arg.Printed ∧ Text.isIdentifier name = true
  | compared _ lhs rhs => lhs.Printed ∧ rhs.Printed
  | negated arg => arg.Printed
  | joined _ lhs rhs => lhs.Printed ∧ rhs.Printed
  | closed inner => (inner.isNegated = true ∨ inner.opensPlain = true) ∧ inner.Printed

end Form

namespace Form

/-- Every filter shows. -/
theorem contains_bar_filtered (arg : Form) (name : List Char) :
    Text.contains bar (filtered arg name).text = true := by
  refine Text.contains_append_of_right (Text.contains_append_of_left ?_ name) arg.text
  decide

/-- Operands that are joined open as the first of them does. -/
theorem opensPlain_foldl_joined (op : LogicOp) (a : Form) (args : List Form) :
    (args.foldl (joined op) a).opensPlain = a.opensPlain := by
  induction args generalizing a with
  | nil => rfl
  | cons b args ih => exact ih (joined op a b)

theorem printed_foldl_joined {op : LogicOp} {a : Form} {args : List Form} (ha : a.Printed)
    (hargs : ∀ b ∈ args, b.Printed) : (args.foldl (joined op) a).Printed := by
  induction args generalizing a with
  | nil => exact ha
  | cons b args ih =>
    exact ih ⟨ha, hargs b List.mem_cons_self⟩ fun c hc => hargs c (List.mem_cons_of_mem b hc)

/-- What an argument is: it shows a filter, or opens without a negation. -/
def IsArgument (f : Form) : Prop :=
  Text.contains bar f.text = true ∨ f.opensPlain = true

/-- A group is an argument, if it does not close a tree that opens with a negation and is none. -/
theorem printed_group {f : Form} (h : f.Printed)
    (hopens : Text.contains bar f.text = true ∨ f.isNegated = true ∨ f.opensPlain = true) :
    f.group.Printed ∧ f.group.IsArgument := by
  unfold group
  split
  · next hbar => exact ⟨h, .inl hbar⟩
  · next hbar => exact ⟨⟨hopens.resolve_left hbar, h⟩, .inr rfl⟩

end Form

namespace Scope

open Form

variable {s : Scope}

theorem printed_of_wordForm? (hs : s.Sound) {word : List Char} {f : Form}
    (h : s.wordForm? word = some f) : f.Printed ∧ f.IsArgument := by
  unfold wordForm? at h
  split at h
  · cases h
    exact ⟨trivial, .inr rfl⟩
  · split at h
    · cases h
      exact ⟨trivial, .inr rfl⟩
    · obtain ⟨path, hpath, rfl⟩ := Option.map_eq_some_iff.1 h
      exact ⟨.of_isPath (hs.word? hpath), .inr rfl⟩

/-- What a tree with well-formed parts opens with: either its text shows a filter, or no negation
stands in front of its first operand, or it is a negation. -/
def WellFormed (f : Form) : Prop :=
  f.Printed ∧ (Text.contains bar f.text = true ∨ f.isNegated = true ∨ f.opensPlain = true)

theorem wellFormed_of_argument {f : Form} (hprinted : f.Printed) (h : f.IsArgument) :
    WellFormed f :=
  ⟨hprinted, h.imp_right .inr⟩

theorem wellFormed_of_filterForm? {name : List Char} (hname : Text.isIdentifier name = true)
    {args : List Form} (hargs : ∀ a ∈ args, a.Printed) {f : Form}
    (h : s.filterForm? name args = some f) : WellFormed f := by
  unfold filterForm? at h
  split at h
  · next a =>
    have ha : a.Printed := hargs a List.mem_cons_self
    split at h
    · cases h
      exact ⟨ha, .inr (.inl rfl)⟩
    · split at h
      · cases h
        exact ⟨⟨ha, by decide⟩, .inl (contains_bar_filtered a _)⟩
      · split at h
        · cases h
          exact ⟨⟨ha, hname⟩, .inl (contains_bar_filtered a _)⟩
        · cases h
  · cases h

/-- What stands first among operands is an argument; the others need not be. -/
def OpensAsArgument (args : List Form) : Prop :=
  ∀ a b more, args = a :: b :: more → a.IsArgument

theorem wellFormed_of_joinForm? {name : List Char} (hname : Text.isIdentifier name = true)
    {args : List Form} (hargs : ∀ a ∈ args, a.Printed) (hopens : OpensAsArgument args) {f : Form}
    (h : s.joinForm? name args = some f) : WellFormed f := by
  unfold joinForm? at h
  split at h
  · next op a b more _ =>
    cases h
    have ha : a.Printed := hargs a List.mem_cons_self
    refine ⟨printed_foldl_joined ha fun c hc => hargs c (List.mem_cons_of_mem a hc), ?_⟩
    rcases hopens a b more rfl with hbar | hplain
    · left
      have hprefix : ∀ (args : List Form) (a : Form), Text.contains bar a.text = true →
          Text.contains bar (args.foldl (joined op) a).text = true := by
        intro args
        induction args with
        | nil => exact fun _ h => h
        | cons c args ih => exact fun a h => ih (joined op a c) (Text.contains_append_of_left h _)
      exact hprefix (b :: more) a hbar
    · right; right
      rw [opensPlain_foldl_joined]
      exact hplain
  · exact wellFormed_of_filterForm? hname hargs h

theorem wellFormed_of_callForm? {name : List Char} (hname : Text.isIdentifier name = true)
    {args : List Form} (hargs : ∀ a ∈ args, a.Printed) (hopens : OpensAsArgument args) {f : Form}
    (h : s.callForm? name args = some f) : WellFormed f := by
  unfold callForm? at h
  split at h
  · next op a b _ =>
    cases h
    have ha : a.Printed := hargs a List.mem_cons_self
    have hb : b.Printed := hargs b (List.mem_cons_of_mem a List.mem_cons_self)
    refine ⟨⟨ha, hb⟩, ?_⟩
    rcases hopens a b [] rfl with hbar | hplain
    · exact .inl (Text.contains_append_of_left hbar _)
    · exact .inr (.inr hplain)
  · exact wellFormed_of_joinForm? hname hargs hopens h

theorem isIdentifier_of_calledName? {t : Term} {name : List Char}
    (h : calledName? t = some name) : Text.isIdentifier name = true := by
  unfold calledName? at h
  split at h
  · split at h
    · next hfunction =>
      cases h
      exact (Bool.and_eq_true_iff.1 hfunction).1
    · cases h
  · cases h

mutual

theorem printed_of_form? (hs : s.Sound) : (t : Term) → (f : Form) → s.form? t = some f →
    f.Printed ∧ f.IsArgument
  | .str text, f, h => by
    obtain ⟨q, hq, rfl⟩ := Option.map_eq_some_iff.1 h
    have hnot := List.find?_some hq
    exact ⟨⟨List.mem_of_find?_eq_some hq, Bool.not_eq_true' _ ▸ hnot⟩, .inr rfl⟩
  | .num n, f, h => by
    obtain ⟨v, hv, rfl⟩ := Option.map_eq_some_iff.1 h
    exact ⟨hv, .inr rfl⟩
  | .word word, f, h => printed_of_wordForm? hs h
  | .group stages, f, h => by
    obtain ⟨inner, hinner, rfl⟩ := Option.map_eq_some_iff.1 h
    obtain ⟨hprinted, hopens⟩ := printed_of_onlyForm? hs stages inner hinner
    exact printed_group hprinted hopens
termination_by structural t => t

theorem printed_of_forms? (hs : s.Sound) : (ts : List Term) → (fs : List Form) →
    s.forms? ts = some fs → ∀ f ∈ fs, f.Printed ∧ f.IsArgument
  | [], fs, h => by
    cases h
    exact fun f hf => absurd hf List.not_mem_nil
  | t :: rest, fs, h => by
    obtain ⟨f, hf, hmore⟩ := Option.bind_eq_some_iff.1 h
    obtain ⟨more, hrest, rfl⟩ := Option.map_eq_some_iff.1 hmore
    intro g hg
    rcases List.mem_cons.1 hg with rfl | hg
    · exact printed_of_form? hs t g hf
    · exact printed_of_forms? hs rest more hrest g hg
termination_by structural ts => ts

theorem printed_of_stageForm? (hs : s.Sound) : (stage : List Term) → (f : Form) →
    s.stageForm? stage = some f → WellFormed f
  | [], f, h => nomatch h
  | t :: rest, f, h => by
    have hsingle : s.form? t = some f → WellFormed f := fun hf => by
      obtain ⟨hprinted, hargument⟩ := printed_of_form? hs t f hf
      exact wellFormed_of_argument hprinted hargument
    unfold stageForm? at h
    cases hname : calledName? t with
    | none =>
      rw [hname] at h
      dsimp only at h
      split at h
      · exact hsingle h
      · cases h
    | some name =>
      rw [hname] at h
      dsimp only at h
      split at h
      · exact hsingle h
      · split at h
        · cases h
        · obtain ⟨args, hargs, hcall⟩ := Option.bind_eq_some_iff.1 h
          have hall := printed_of_forms? hs rest args hargs
          refine wellFormed_of_callForm? (isIdentifier_of_calledName? hname)
            (fun a ha => (hall a ha).1) ?_ hcall
          rintro a b more rfl
          exact (hall a List.mem_cons_self).2
termination_by structural stage => stage

theorem printed_of_onlyForm? (hs : s.Sound) : (stages : List (List Term)) → (f : Form) →
    s.onlyForm? stages = some f → WellFormed f
  | [], f, h => nomatch h
  | stage :: rest, f, h => by
    unfold onlyForm? at h
    split at h
    · exact printed_of_stageForm? hs stage f h
    · cases h
termination_by structural stages => stages

end

end Scope

end Runbook.Template.Action
