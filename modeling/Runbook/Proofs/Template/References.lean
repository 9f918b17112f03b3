import Runbook.Proofs.Template.Actions
import Runbook.Proofs.Template.Bindings
import Runbook.Proofs.Text.Replacement
/-!
# What dot references read

A reference with a dot is meant to read the namespace, or the element of the loop it stands in; a
name behind a dollar sign is meant to be a variable.  In the template language both are plain names.

* `Scope.WritesEntry` — the ways to write an entry of the namespace;
* `LeadsToEntry`, `LeadsToElement` — at every part of a template that rendering reaches, a path
  comes to the entry, or to the element, as long as nothing on the way binds its name;
* `ShowsPath` — a tag shows what its path comes to wherever a rendered template reaches it;
* `Scope.references_read_unbound` — every dot reference is such a path, and it is the path of the
  variable of the same name;
* `Scope.declaration_captures_entry` — so a declaration or a loop over the same name captures it.
-/

namespace Runbook.Template.Action

open Runbook.Text

/-! ### Words -/

namespace Scope

/-- The ways to write the entry of the namespace under a name. -/
inductive WritesEntry (s : Scope) (name : List Char) : List Token → Prop where
  | dot (h : s.dot? = none) : WritesEntry s name [.word ('.' :: name)]
  | root : WritesEntry s name [.word ('$' :: '.' :: name)]
  | index : WritesEntry s name [.word "index".toList, .word ['$'], .str name]

variable {s : Scope} {name dot : List Char}

theorem path?_of_isIdentifier (h : isIdentifier name = true) : path? name = some name :=
  if_pos (isPath_of_isIdentifier h)

/-- A word on its own is an action. -/
theorem pipeline?_word {word : List Char} (h : isFunctionName word = false) :
    s.pipeline? [.word word] = s.word? word := by
  have hread : readPipeline? [.word word] = some [[.word word]] := rfl
  have hname : calledName? (.word word) = none := if_neg (by rw [h]; decide)
  rw [Scope.pipeline?, hread, Option.bind_some, Scope.stages?, Scope.stage?, hname]
  show (s.word? word).bind _ = s.word? word
  cases s.word? word <;> rfl

theorem isFunctionName_of_dot (rest : List Char) : isFunctionName ('.' :: rest) = false := rfl

theorem isFunctionName_of_dollar (rest : List Char) : isFunctionName ('$' :: rest) = false := rfl

theorem word?_dot (h : isPath name = true) :
    s.word? ('.' :: name) = some (match s.dot? with
      | some dot => dot ++ '.' :: name
      | none => name) := by
  cases name with
  | nil => cases h
  | cons c rest =>
    show (path? (c :: rest)).map _ = _
    rw [path?, if_pos h]
    rfl

theorem word?_root (h : isIdentifier name = true) : s.word? ('$' :: '.' :: name) = some name :=
  path?_of_isIdentifier h

theorem word?_variable (h : isPath name = true) : s.word? ('$' :: name) = some name := by
  obtain ⟨c, rest, rfl, hc⟩ := (IsReference.of_isPath h).head
  have hdot : c ≠ '.' := by
    rintro rfl
    cases hc
  unfold Scope.word?
  split
  · next heq => cases heq
  · next heq => cases heq
  · next heq =>
    cases heq
    exact absurd rfl hdot
  · next heq =>
    cases heq
    exact if_pos h
  · next heq => cases heq
  · next hother _ => exact absurd rfl (hother _)

/-- An entry is a plain name, however it is written. -/
theorem WritesEntry.pipeline? {action : List Token} (h : s.WritesEntry name action)
    (hname : isIdentifier name = true) : s.pipeline? action = some name := by
  cases h with
  | dot hdot =>
    rw [pipeline?_word (isFunctionName_of_dot _), word?_dot (isPath_of_isIdentifier hname), hdot]
  | root => rw [pipeline?_word (isFunctionName_of_dollar _), word?_root hname]
  | index =>
    have hread : readPipeline? [.word "index".toList, .word ['$'], .str name]
        = some [[.word "index".toList, .word ['$'], .str name]] := rfl
    have hkey : s.subscript? Action.root (.str name) = some name := if_pos ⟨rfl, hname⟩
    have hindex : s.index? [.word ['$'], .str name] = some name := by
      show (s.subscript? Action.root (.str name)).bind (fun base => some base) = some name
      rw [hkey]
      rfl
    rw [Scope.pipeline?, hread, Option.bind_some, Scope.stages?]
    show (s.index? [.word ['$'], .str name]).bind _ = some name
    rw [hindex]
    rfl

/-- A tag whose action is a path keeps it. -/
theorem keepsGrouping_of_path {s' : Scope} {tag text path : List Char} {action : List Token}
    (htag : s.tag? tag = some (text, s'))
    (haction : (tagTokens? tag).bind s.actionTokens? = some action)
    (hpipeline : s.pipeline? action = some path) (hpath : isPath path = true)
    (hkept : (Form.ref path).Kept = true) : KeepsGrouping (.ref path) text := by
  rcases tag?_cases htag with ⟨inner, rfl⟩ | ⟨tokens, body, left, right, htokens, hbody, rfl⟩
  · exact keepsGrouping_comment _ inner
  · refine hbody.keepsGrouping hkept (IsReference.of_isPath hpath) (fun inner hinner => ?_)
      left right
    rw [htokens, Option.bind_some] at haction
    rw [actionText?, haction, Option.bind_some, hpipeline] at hinner
    exact (Option.some.inj hinner).symm

end Scope

/-! ### Paths in frames -/

/-- There are no dots in an identifier. -/
theorem beq_dot_of_mem {name : List Char} (h : isIdentifier name = true) :
    ∀ c ∈ name, (c == '.') = false :=
  fun c hc => beq_dot_of_isIdentChar (List.all_eq_true.1 (all_of_isIdentifier h) c hc)

theorem splitDot_of_isIdentifier {name : List Char} (h : isIdentifier name = true) :
    splitDot name = (name, none) := by
  rw [splitDot, splitAtFirst?_eq_none (beq_dot_of_mem h)]

theorem splitDot_append {name : List Char} (h : isIdentifier name = true) (rest : List Char) :
    splitDot (name ++ '.' :: rest) = (name, some rest) := by
  rw [splitDot, splitAtFirst?_append_cons (beq_dot_of_mem h) rfl]

/-- A path has no subscripts. -/
theorem contains_bracket_of_isPath {path : List Char} (h : isPath path = true) :
    path.contains '[' = false := by
  have hno : ∀ cs : List Char, cs.all isIdentChar = true → '[' ∉ cs :=
    fun _ hcs => not_mem_of_all hcs rfl
  obtain ⟨first, parts, rfl, hfirst, hparts⟩ := exists_parts_of_isPath h
  rw [Bool.eq_false_iff]
  intro hmem
  rw [List.contains_iff_mem] at hmem
  rcases List.mem_append.1 hmem with hmem | hmem
  · exact hno _ (all_of_isIdentifier hfirst) hmem
  · obtain ⟨part, hpart, hmem⟩ := List.mem_flatMap.1 hmem
    refine hno _ (Bool.and_eq_true_iff.1 (hparts part hpart)).2 ?_
    exact (List.mem_cons.1 hmem).resolve_left (by decide)

/-- What a reference comes to when it is looked for. -/
def Outcome.ofFound : Option Value → Outcome
  | some v => .value v
  | none => .absent

/-- A path is looked up in the frames as it stands. -/
theorem lookup?_of_isPath {path : List Char} (h : isPath path = true) (ns : Namespace)
    (fs : Frames) : fs.lookup? ns path = fs.find? ns path := by
  rw [Frames.lookup?, Frames.resolve?, contains_bracket_of_isPath h]
  rfl

theorem outcome_of_isPath {path : List Char} (h : isPath path = true) (c : Context) (fs : Frames) :
    (Form.ref path).outcome c fs = .ofFound (fs.find? c.vars path) := by
  rw [Form.outcome, lookup?_of_isPath h]
  cases fs.find? c.vars path <;> rfl

/-- An identifier is no path into the state of a loop. -/
theorem not_mem_loopStates {name : List Char} (h : isIdentifier name = true) :
    String.ofList name ∉ loopStates := by
  intro hmem
  have hdot : ∀ word ∈ loopStates, '.' ∈ word.toList := by decide
  have hname := hdot _ hmem
  rw [String.toList_ofList] at hname
  exact not_mem_of_all (all_of_isIdentifier h) rfl hname

/-- Frames that bind nothing leave a path to the namespace. -/
theorem find?_of_free {path : List Char} (hstate : String.ofList path ∉ loopStates)
    (ns : Namespace) : ∀ fs : Frames, (∀ f ∈ fs, f.Free path) →
      fs.find? ns path = findDeclared? ns path
  | [], _ => rfl
  | f :: fs, h => by
    rw [Frames.find?, (h f List.mem_cons_self).find?_eq_none hstate,
      find?_of_free hstate ns fs fun g hg => h g (List.mem_cons_of_mem _ hg)]
    exact ite_self _

/-! ### Entries and elements -/

/-- At every part that is reached, a path comes to the entry under a name, unless the frames at the
start bind it or the parts do. -/
def LeadsToEntry (path : List Char) (name : String) : Prop :=
  ∀ (c : Context) (vars : Namespace) (nodes : List Node) (node : Node) (fs gs : Frames),
    c.vars = Fields.insert (String.ofList root) (.obj vars) vars → (∀ f ∈ fs, f.Free path) →
      Visits c nodes fs node gs → Spared path (boundIn nodes) →
        (Form.ref path).outcome c gs = .ofFound (Fields.get? name vars)

/-- At every part that a turn of a loop reaches, a path comes to what the element of the loop holds,
unless the key of the loop or the body binds it. -/
def LeadsToElement (dot path : List Char) (part? : Value → Option Value) : Prop :=
  ∀ (c : Context) (cur : Cursor) (body : List Node) (node : Node) (fs gs : Frames) (v : Value),
    cur.itemName = String.ofList dot → (∀ key ∈ cur.keyName, ¬ Names path key) →
      Visits c body ({ cursor := some cur } :: fs) node gs → Spared path (boundIn body) →
        part? cur.item = some v → (Form.ref path).outcome c gs = .value v

/-- A tag shows what a path comes to wherever a template that is rendered reaches the tag. -/
def ShowsPath (path text : List Char) : Prop :=
  ∀ (rest rest' : List Char) (node : Node), readDisplay (text ++ rest) = some (node, rest') →
    ∀ (c : Context) (nodes : List Node) (fs gs : Frames) (out : List Char × Frames × Flow),
      Visits c nodes fs node gs → renderNodes c nodes fs = some out →
        ∃ v, (Form.ref path).outcome c gs = .value v ∧
          renderNode c node gs = some (v.shown.toList, gs, .next)

theorem KeepsGrouping.showsPath {path text : List Char} (h : KeepsGrouping (.ref path) text) :
    ShowsPath path text := by
  intro rest rest' node hread c nodes fs gs out hvisits hout
  obtain ⟨shown, hshown⟩ := rendered_of_visits hvisits hout
  obtain ⟨v, hv, rfl⟩ := (h.shown rfl rest node rest' hread).2 c gs shown hshown
  exact ⟨v, hv, hshown⟩

/-- A plain name leads to the entry under it. -/
theorem leadsToEntry {name : List Char} (hname : isIdentifier name = true) (hroot : name ≠ root) :
    LeadsToEntry name (String.ofList name) := by
  intro c vars nodes node fs gs hvars hfree hvisits hspared
  have hstate := not_mem_loopStates hname
  rw [outcome_of_isPath (isPath_of_isIdentifier hname), find?_of_visits hvisits hspared hstate,
    find?_of_free hstate _ fs hfree, findDeclared?, splitDot_of_isIdentifier hname, hvars]
  exact congrArg _ (Fields.get?_insert_of_ne _ _ fun he => hroot (String.ofList_injective he))

/-- In a turn of a loop a path that is found at the element leads into it. -/
theorem leadsToElement {dot path : List Char} {part? : Value → Option Value}
    (hpath : isPath path = true) (hstate : String.ofList path ∉ loopStates)
    (hfind : ∀ (cur : Cursor) (v : Value), cur.itemName = String.ofList dot →
      (∀ key ∈ cur.keyName, ¬ Names path key) → part? cur.item = some v →
        cur.find? path = some v) :
    LeadsToElement dot path part? := by
  intro c cur body node fs gs v hitem hkey hvisits hspared hpart
  have hframe : Frame.find? { cursor := some cur } path = some v := by
    rw [Frame.find?, findDeclared?_eq_none rfl]
    exact hfind cur v hitem hkey hpart
  rw [outcome_of_isPath hpath, find?_of_visits hvisits hspared hstate, Frames.find?, hframe]
  rfl

/-- The name of the element of a loop leads to the element. -/
theorem leadsToElement_self {dot : List Char} (hdot : isIdentifier dot = true) :
    LeadsToElement dot dot some := by
  have hstate := not_mem_loopStates hdot
  refine leadsToElement (isPath_of_isIdentifier hdot) hstate fun cur v hitem hkey hv => ?_
  rw [Cursor.find?_item hstate hkey, splitDot_of_isIdentifier hdot]
  exact (if_pos hitem.symm).trans hv

theorem splitPath_of_all {name : List Char} (h : name.all isIdentChar = true) (part : List Char) :
    splitPath {} part name = closePart (name.reverse ++ part) [] := by
  induction name generalizing part with
  | nil => rfl
  | cons c rest ih =>
    obtain ⟨hc, hrest⟩ := Bool.and_eq_true_iff.1 h
    have hne : ∀ d, isIdentChar d = false → c ≠ d := by
      rintro d hd rfl
      rw [hd] at hc
      cases hc
    rw [splitPath, if_neg (hne _ rfl), if_neg (hne _ rfl), if_neg (hne _ rfl),
      if_neg fun hdot => hne '.' rfl hdot.1, ih hrest, List.reverse_cons, List.append_assoc]
    rfl

/-- An identifier is a path of one part. -/
theorem pathParts_of_isIdentifier {name : List Char} (h : isIdentifier name = true) :
    pathParts name = [name] := by
  have hall := all_of_isIdentifier h
  have htilde : '~' ∉ name := not_mem_of_all hall rfl
  have hplain : plainPart name = name := by
    rw [plainPart, replaceAll_of_not_mem htilde, replaceAll_of_not_mem htilde]
  have hsome : name.reverse ≠ [] := by
    rw [Ne, List.reverse_eq_nil_iff]
    rintro rfl
    cases h
  rw [pathParts, splitPath_of_all hall, List.append_nil]
  cases hreverse : name.reverse with
  | nil => exact absurd hreverse hsome
  | cons c rest =>
    show [plainPart (c :: rest).reverse] = [name]
    rw [← hreverse, List.reverse_reverse, hplain]

/-- The field of a record under a name. -/
def fieldOf? (name : List Char) (v : Value) : Option Value :=
  v.fields?.bind (Fields.get? (String.ofList name))

/-- A field behind that name leads to the field of the element. -/
theorem leadsToElement_field {dot name : List Char} (hdot : isIdentifier dot = true)
    (hname : isIdentifier name = true)
    (hstate : String.ofList (dot ++ '.' :: name) ∉ loopStates) :
    LeadsToElement dot (dot ++ '.' :: name) (fieldOf? name) := by
  refine leadsToElement (isPath_append hdot (isPath_of_isIdentifier hname)) hstate
    fun cur v hitem hkey hv => ?_
  rw [Cursor.find?_item hstate hkey, splitDot_append hdot]
  refine (if_pos hitem.symm).trans ?_
  rw [followPath?, pathParts_of_isIdentifier hname]
  obtain ⟨fields, hfields, hv⟩ := Option.bind_eq_some_iff.1 hv
  cases hcur : cur.item with
  | obj fields' =>
    rw [hcur] at hfields
    obtain rfl := Option.some.inj hfields
    show (Fields.get? (String.ofList name) fields').bind some = some v
    rw [hv]
    rfl
  | _ =>
    rw [hcur] at hfields
    cases hfields

/-! ### Loops -/

namespace Scope

variable {s s' : Scope} {tag text : List Char} {tokens : List Token} {body : TagBody}

/-- A tag with tokens becomes what these become. -/
theorem body?_of_tag? (htokens : tagTokens? tag = some tokens)
    (htag : s.tag? tag = some (text, s')) :
    ∃ body left right, s.body? tokens = some (body, s') ∧ text = body.text left right := by
  rcases tag?_eq_some htag with ⟨hnone, -⟩ | ⟨found, body, left, right, hfound, hbody, htext⟩
  · rw [htokens] at hnone
    cases hnone
  · rw [htokens] at hfound
    cases hfound
    exact ⟨body, left, right, hbody, htext⟩

/-- The element of an opened loop is named by its last name. -/
theorem names_of_openLoop? (h : s.openLoop? tokens = some (body, s')) :
    ∃ names rest inner dot, loopNames? s tokens = some (names, rest) ∧
      names.getLast? = some dot ∧ s'.dot? = some dot ∧
      body = .statement ("for ".toList ++ joinWith [',', ' '] names ++ " in ".toList ++ inner) := by
  obtain ⟨⟨names, rest⟩, hnames, h⟩ := Option.bind_eq_some_iff.1 h
  obtain ⟨inner, -, h⟩ := Option.bind_eq_some_iff.1 h
  obtain ⟨dot, hdot, h⟩ := Option.map_eq_some_iff.1 h
  cases h
  exact ⟨names, rest, inner, dot, hnames, hdot, rfl, rfl⟩

/-- The loop that is read for a range names its element as the scope inside does. -/
theorem item_of_range (htokens : tagTokens? tag = some (.word "range".toList :: tokens))
    (htag : s.tag? tag = some (text, s')) :
    ∃ dot, s'.dot? = some dot ∧ ∀ fuel rest node rest',
      readLoop (fuel + 1) (text ++ rest) = some (node, rest') →
        ∃ start key source body empty stop,
          node = .loop start key (String.ofList dot) source body empty stop := by
  obtain ⟨body, left, right, hbody, rfl⟩ := body?_of_tag? htokens htag
  obtain ⟨names, behind, inner, dot, hnames, hlast, hdot, rfl⟩ := names_of_openLoop? hbody
  refine ⟨dot, hdot, fun fuel rest node rest' h => ?_⟩
  obtain ⟨found, hread, hskip, hfound⟩ := readLoopNames_names hnames
    ('i' :: 'n' :: ' ' :: (inner ++ ' ' :: (ending '%' right ++ rest)))
  rw [hlast] at hfound
  rw [readLoop] at h
  obtain ⟨⟨trims, cs⟩, hstart, hafter⟩ := Option.bind_eq_some_iff.1 h
  obtain ⟨⟨⟨key, item⟩, behindNames⟩, hloop, hafter⟩ := Option.bind_eq_some_iff.1 hafter
  obtain ⟨inside, -, hafter⟩ := Option.bind_eq_some_iff.1 hafter
  obtain ⟨⟨source, behindSource⟩, -, hafter⟩ := Option.bind_eq_some_iff.1 hafter
  obtain ⟨⟨trims', behindTag⟩, -, hafter⟩ := Option.bind_eq_some_iff.1 hafter
  dsimp only at hafter
  obtain ⟨⟨stop, behindLoop⟩, -, heq⟩ := Option.map_eq_some_iff.1 hafter
  simp only [statement_append, List.append_assoc] at hstart
  rw [readTagWord_of_some rfl] at hstart
  cases hstart
  have hboth : some (found, _) = some ((key, item), behindNames) :=
    hread.symm.trans ((congrArg readLoopNames hskip).symm.trans hloop)
  obtain ⟨rfl, -⟩ := Prod.mk.inj (Option.some.inj hboth)
  obtain rfl : String.ofList dot = item := Option.some.inj hfound
  cases heq
  exact ⟨_, _, _, _, _, _, rfl⟩

/-- The ways to write the element of the innermost loop, and a field of it. -/
inductive WritesElement (dot : List Char) :
    (path : List Char) → (part? : Value → Option Value) → List Token → Prop where
  | self : WritesElement dot dot some [.word ['.']]
  | field {name : List Char} (hname : isIdentifier name = true) :
    WritesElement dot (dot ++ '.' :: name) (fieldOf? name) [.word ('.' :: name)]

/-- Inside a loop these are paths off the name of its element. -/
theorem WritesElement.pipeline? {dot path : List Char} {part? : Value → Option Value}
    {action : List Token} (h : WritesElement dot path part? action) (hdot : s.dot? = some dot) :
    s.pipeline? action = some path := by
  cases h with
  | self =>
    rw [pipeline?_word (isFunctionName_of_dot _)]
    show some (s.dot?.getD root) = some dot
    rw [hdot]
    rfl
  | field hname =>
    rw [pipeline?_word (isFunctionName_of_dot _), word?_dot (isPath_of_isIdentifier hname), hdot]

theorem WritesElement.leadsToElement {dot path : List Char} {part? : Value → Option Value}
    {action : List Token} (h : WritesElement dot path part? action)
    (hdot : isIdentifier dot = true) (hstate : String.ofList path ∉ loopStates) :
    LeadsToElement dot path part? := by
  cases h with
  | self => exact leadsToElement_self hdot
  | field hname => exact leadsToElement_field hdot hname hstate

theorem WritesElement.isPath {dot path : List Char} {part? : Value → Option Value}
    {action : List Token} (h : WritesElement dot path part? action)
    (hdot : isIdentifier dot = true) : isPath path = true := by
  cases h with
  | self => exact isPath_of_isIdentifier hdot
  | field hname => exact isPath_append hdot (isPath_of_isIdentifier hname)

/-- **References read what no variable binds.**  In every scope that a template reaches, a tag whose
action writes an entry of the namespace or the element of the innermost loop reads it at every part
that rendering reaches, unless a variable of the template is bound under that name; and an entry is
written in the template language as the variable of the same name is.  The name of a dump of all
variables, which is not modelled here, is left out. -/
theorem references_read_unbound {filters : List (List Char)} (hs : Reached filters s)
    (htag : s.tag? tag = some (text, s')) :
    (∀ action name, (tagTokens? tag).bind s.actionTokens? = some action →
      s.WritesEntry name action → isIdentifier name = true → name ≠ root →
        name ≠ "__tera_context".toList → (Form.ref name).Kept = true →
          KeepsGrouping (.ref name) text ∧ ShowsPath name text ∧
            LeadsToEntry name (String.ofList name) ∧
              s.pipeline? action = s.pipeline? [.word ('$' :: name)]) ∧
    (∀ action dot path part?, (tagTokens? tag).bind s.actionTokens? = some action →
      s.dot? = some dot → WritesElement dot path part? action → (Form.ref path).Kept = true →
        path ≠ "__tera_context".toList → String.ofList path ∉ loopStates →
          KeepsGrouping (.ref path) text ∧ ShowsPath path text ∧ LeadsToElement dot path part?) ∧
    (∀ tokens, tagTokens? tag = some (.word "range".toList :: tokens) →
      ∃ dot, s'.dot? = some dot ∧ ∀ fuel rest node rest',
        readLoop (fuel + 1) (text ++ rest) = some (node, rest') →
          ∃ start key source body empty stop,
            node = .loop start key (String.ofList dot) source body empty stop) := by
  refine ⟨?_, ?_, fun tokens htokens => item_of_range htokens htag⟩
  · intro action name haction hwrites hname hroot _ hkept
    have hpipeline := hwrites.pipeline? hname
    have hkeeps :=
      keepsGrouping_of_path htag haction hpipeline (isPath_of_isIdentifier hname) hkept
    refine ⟨hkeeps, hkeeps.showsPath, leadsToEntry hname hroot, hpipeline.trans ?_⟩
    rw [pipeline?_word (isFunctionName_of_dollar _), word?_variable (isPath_of_isIdentifier hname)]
  · intro action dot path part? haction hdot hwrites hkept _ hstate
    have hident := hs.sound.dot? hdot
    have hkeeps :=
      keepsGrouping_of_path htag haction (hwrites.pipeline? hdot) (hwrites.isPath hident) hkept
    exact ⟨hkeeps, hkeeps.showsPath, hwrites.leadsToElement hident hstate⟩

/-- A tag's text and what the scope behind it is made of. -/
def becomes? (s : Scope) (tag : List Char) : Option (List Char × List (List Char) × List Block) :=
  (s.tag? tag).map fun (text, t) => (text, t.filters, t.blocks)

theorem tag?_of_becomes? {t : Scope} (h : s.becomes? tag = some (text, t.filters, t.blocks)) :
    s.tag? tag = some (text, t) := by
  obtain ⟨⟨text', filters, blocks⟩, htag, he⟩ := Option.map_eq_some_iff.1 h
  obtain ⟨filters', blocks'⟩ := t
  cases he
  exact htag

/-- The tag of a loop over hosts. -/
def hostsTag : List Char := "\x7b\x7b range $v := .hosts \x7d\x7d".toList

/-- The scope inside this loop. -/
def hostsScope : Scope := { filters := [], blocks := [.loop "v".toList] }

/-- A reference to an entry inside it. -/
def domainTag : List Char := "\x7b\x7b $.domain \x7d\x7d".toList

/-- A reference to the element. -/
def hostTag : List Char := "\x7b\x7b . \x7d\x7d".toList

/-- A namespace of two hosts and their domain. -/
def hostsNamespace : Namespace :=
  [("domain", .str "example.com"), ("hosts", .arr [.str "web", .str "db"])]

/-- The context of a template in this namespace. -/
def hostsContext : Context where
  vars := Fields.insert (String.ofList root) (.obj hostsNamespace) hostsNamespace
  filter? := Filter.builtin?

/-- The body of a loop over these hosts that declares a variable. -/
def hostsBody : List Node :=
  [.assign {} false "w" (.ofTerm (.str "x".toList)), .text []]

/-- The loop. -/
def hostsLoop : Node :=
  .loop {} none "v" (.ofTerm (.ref "hosts".toList)) hostsBody none {}

/-- The loop at its first host. -/
def firstHost : Cursor := .ofEntry none "v" 2 0 "" (.str "web")

/-- The frames behind the declaration in the first turn. -/
def hostsFrames : Frames :=
  [{ cursor := some firstHost, vars := [("w", .str "x")] }, {}]

/-- Inside the loop `$.domain` reads the domain and `.` the host, behind a declaration too. -/
theorem references_read_hosts :
    (∃ text, hostsScope.tag? domainTag = some (text, hostsScope) ∧
      KeepsGrouping (.ref "domain".toList) text) ∧
    (∃ text, hostsScope.tag? hostTag = some (text, hostsScope) ∧
      KeepsGrouping (.ref "v".toList) text) ∧
    Visits hostsContext [hostsLoop] [{}] (.text []) hostsFrames ∧
    (Form.ref "domain".toList).outcome hostsContext hostsFrames = .value (.str "example.com") ∧
    (Form.ref "v".toList).outcome hostsContext hostsFrames = .value (.str "web") := by
  have hopen : ({ filters := [] } : Scope).tag? hostsTag
      = some ("\x7b% for v in hosts %\x7d".toList, hostsScope) :=
    tag?_of_becomes? (by decide +kernel)
  have hs : Reached [] hostsScope := .tag .start hopen
  have hdomainTag : hostsScope.tag? domainTag
      = some ("\x7b\x7b domain \x7d\x7d".toList, hostsScope) :=
    tag?_of_becomes? (by decide +kernel)
  have hhostTag : hostsScope.tag? hostTag = some ("\x7b\x7b v \x7d\x7d".toList, hostsScope) :=
    tag?_of_becomes? (by decide +kernel)
  obtain ⟨hdomain, -, hentry, -⟩ := (references_read_unbound hs hdomainTag).1
    [.word "$.domain".toList] "domain".toList (by decide +kernel) .root (by decide +kernel)
    (by decide +kernel) (by decide +kernel) (by decide +kernel)
  obtain ⟨hhost, -, helement⟩ := (references_read_unbound hs hhostTag).2.1
    [.word ['.']] "v".toList "v".toList some (by decide +kernel) rfl .self (by decide +kernel)
    (by decide +kernel) (by decide +kernel)
  have hbody : Visits hostsContext hostsBody [{ cursor := some firstHost }, {}] (.text [])
      hostsFrames := by
    have hassign : renderNode hostsContext (.assign {} false "w" (.ofTerm (.str "x".toList)))
        [{ cursor := some firstHost }, {}] = some ([], hostsFrames, .next) := by cbv
    exact .later hassign .here
  have hvisits : Visits hostsContext [hostsLoop] [{}] (.text []) hostsFrames := by
    have hentries : (evalExpr hostsContext [{}] (.ofTerm (.ref "hosts".toList))).bind
        (loopEntries? false) = some [("", .str "web"), ("", .str "db")] := by cbv
    exact .turn hentries .here hbody
  have hspared : Spared "domain".toList (boundIn [hostsLoop]) := by unfold Spared; decide +kernel
  have hspared' : Spared "v".toList (boundIn hostsBody) := by unfold Spared; decide +kernel
  have hfree : ∀ f ∈ ([{}] : Frames), f.Free "domain".toList := by
    intro f hf
    rw [List.mem_singleton.1 hf]
    exact Frame.free_default _
  refine ⟨⟨_, hdomainTag, hdomain⟩, ⟨_, hhostTag, hhost⟩, hvisits, ?_, ?_⟩
  · exact (hentry _ hostsNamespace _ _ _ _ rfl hfree hvisits hspared).trans (by cbv)
  · exact helement _ firstHost _ _ _ _ _ (by decide +kernel) (fun _ hkey => by cases hkey) hbody
      hspared' rfl

/-- A declaration captures the entry of its name, and one inside a loop its element. -/
theorem declaration_captures_entry :
    (¬ ∀ (vars : Namespace) (name : List Char) (v : Value), isIdentifier name = true →
      Fields.get? (String.ofList name) vars = some v →
        interpolate [] vars (String.ofList ("\x7b\x7b $".toList ++ name
          ++ " := \"x\" \x7d\x7d\x7b\x7b .".toList ++ name ++ " \x7d\x7d".toList)) = v.shown) ∧
    ¬ ∀ (vars : Namespace) (name : List Char) (v : Value), isIdentifier name = true →
      Fields.get? "items" vars = some (.arr [v]) →
        interpolate [] vars (String.ofList ("\x7b\x7b range $".toList ++ name
          ++ " := .items \x7d\x7d\x7b\x7b $".toList ++ name
            ++ " := \"x\" \x7d\x7d\x7b\x7b . \x7d\x7d\x7b\x7b end \x7d\x7d".toList)) = v.shown := by
  refine ⟨fun hclaim => ?_, fun hclaim => ?_⟩
  · have hshown := hclaim [("user", .str "John")] "user".toList (.str "John") (by decide) (by cbv)
    have hrun : interpolate [] [("user", .str "John")] (String.ofList ("\x7b\x7b $".toList
        ++ "user".toList ++ " := \"x\" \x7d\x7d\x7b\x7b .".toList ++ "user".toList
          ++ " \x7d\x7d".toList)) = "x" := by decide +kernel
    exact absurd (hrun.symm.trans hshown) (by decide +kernel)
  · have hshown := hclaim [("items", .arr [.str "web"])] "host".toList (.str "web") (by decide)
      (by cbv)
    have hrun : interpolate [] [("items", .arr [.str "web"])] (String.ofList
        ("\x7b\x7b range $".toList ++ "host".toList ++ " := .items \x7d\x7d\x7b\x7b $".toList
          ++ "host".toList ++ " := \"x\" \x7d\x7d\x7b\x7b . \x7d\x7d\x7b\x7b end \x7d\x7d".toList))
        = "x" := by decide +kernel
    exact absurd (hrun.symm.trans hshown) (by decide +kernel)

end Scope

end Runbook.Template.Action
