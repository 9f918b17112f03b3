import Runbook.Template.Render
/-!
# What rendering binds

A template is rendered under a stack of frames, which assignments and loops change.  Names that no
part of the template binds keep their values at every place that rendering reaches.

* `Visits` — the parts that rendering reaches, each with the frames it is rendered under;
* `boundIn` — the names that parts bind, by assignments and by loops;
* `alike_of_renderNodes` — one rendering leaves the frames as they were, but for bound names;
* `find?_of_visits` — so a path whose first part is not bound leads to the same value at every part
  that is reached.
-/

namespace Runbook.Template

open Runbook.Text

/-! ### Paths and names -/

/-- The first part of a path as a name. -/
def headName (path : List Char) : String :=
  String.ofList (splitDot path).1

/-- A name that a path is looked up by: its first part, or the path as a whole. -/
def Names (path : List Char) (name : String) : Prop :=
  name = headName path ∨ name = String.ofList path

instance (path : List Char) (name : String) : Decidable (Names path name) :=
  inferInstanceAs (Decidable (_ ∨ _))

/-- Declared variables are looked up by the first part of a path. -/
theorem findDeclared?_congr {vars vars' : Namespace} {path : List Char}
    (h : Fields.get? (headName path) vars' = Fields.get? (headName path) vars) :
    findDeclared? vars' path = findDeclared? vars path := by
  unfold findDeclared?
  unfold headName at h
  split <;> next heq => rw [heq] at h; rw [h]

theorem findDeclared?_eq_none {vars : Namespace} {path : List Char}
    (h : Fields.get? (headName path) vars = none) : findDeclared? vars path = none := by
  have hempty : Fields.get? (headName path) vars = Fields.get? (headName path) [] := h
  rw [findDeclared?_congr hempty]
  unfold findDeclared?
  split <;> rfl

/-- The paths into the state of a loop. -/
def loopStates : List String := ["loop.index", "loop.index0", "loop.first", "loop.last"]

/-- Behind its state and its key, a loop holds its element. -/
theorem Cursor.find?_item {cur : Cursor} {path : List Char}
    (hstate : String.ofList path ∉ loopStates) (hkey : ∀ key ∈ cur.keyName, ¬ Names path key) :
    cur.find? path = match splitDot path with
      | (head, some tail) =>
        if String.ofList head = cur.itemName then followPath? cur.item tail else none
      | (head, none) => if String.ofList head = cur.itemName then some cur.item else none := by
  have hword : ∀ word ∈ loopStates, String.ofList path ≠ word :=
    fun word hword he => hstate (he ▸ hword)
  have hkeyName : cur.keyName ≠ some (String.ofList path) :=
    fun he => hkey _ he (.inr rfl)
  unfold Cursor.find?
  exact (if_neg (hword "loop.index" (by decide))).trans <|
    (if_neg (hword "loop.index0" (by decide))).trans <|
    (if_neg (hword "loop.first" (by decide))).trans <|
    (if_neg (hword "loop.last" (by decide))).trans (if_neg hkeyName)

/-- A path that no name of a loop stands for, and that is not into its state, does not lead into the
loop. -/
theorem Cursor.find?_eq_none {cur : Cursor} {path : List Char}
    (hstate : String.ofList path ∉ loopStates) (hkey : ∀ key ∈ cur.keyName, ¬ Names path key)
    (hitem : ¬ Names path cur.itemName) : cur.find? path = none := by
  have hitemName : headName path ≠ cur.itemName := fun he => hitem (.inl he.symm)
  unfold headName at hitemName
  rw [find?_item hstate hkey]
  split <;> next heq => rw [heq] at hitemName; rw [if_neg hitemName]

/-! ### Frames -/

/-- A frame that binds nothing that a path could stand for. -/
structure Frame.Free (path : List Char) (f : Frame) : Prop where
  vars : Fields.get? (headName path) f.vars = none
  keys : ∀ cur ∈ f.cursor, ∀ key ∈ cur.keyName, ¬ Names path key
  items : ∀ cur ∈ f.cursor, ¬ Names path cur.itemName

/-- The frame that a template starts with binds nothing. -/
theorem Frame.free_default (path : List Char) : Frame.Free path {} :=
  ⟨rfl, nofun, nofun⟩

theorem Frame.Free.find?_eq_none {path : List Char} {f : Frame} (h : f.Free path)
    (hstate : String.ofList path ∉ loopStates) : f.find? path = none := by
  rw [Frame.find?, findDeclared?_eq_none h.vars]
  cases hcursor : f.cursor with
  | none => rfl
  | some cur => exact Cursor.find?_eq_none hstate (h.keys cur hcursor) (h.items cur hcursor)

/-- Two frames that differ at most in variables that a path does not stand for. -/
structure Frame.Alike (path : List Char) (f f' : Frame) : Prop where
  isMacro : f'.isMacro = f.isMacro
  cursor : f'.cursor = f.cursor
  vars : Fields.get? (headName path) f'.vars = Fields.get? (headName path) f.vars

namespace Frame.Alike

variable {path : List Char} {f g k : Frame}

theorem refl (f : Frame) : f.Alike path f :=
  ⟨rfl, rfl, rfl⟩

theorem trans (h : f.Alike path g) (h' : g.Alike path k) : f.Alike path k :=
  ⟨h'.isMacro.trans h.isMacro, h'.cursor.trans h.cursor, h'.vars.trans h.vars⟩

theorem find? (h : f.Alike path g) : g.find? path = f.find? path := by
  rw [Frame.find?, Frame.find?, findDeclared?_congr h.vars, h.cursor]

/-- A variable of another name. -/
theorem insert {name : String} (hname : ¬ Names path name) (v : Value) (f : Frame) :
    f.Alike path { f with vars := Fields.insert name v f.vars } :=
  ⟨rfl, rfl, Fields.get?_insert_of_ne v f.vars fun he => hname (.inl he.symm)⟩

end Frame.Alike

/-- Two stacks of frames that are alike frame by frame. -/
inductive Frames.Alike (path : List Char) : Frames → Frames → Prop where
  | nil : Frames.Alike path [] []
  | cons {f g : Frame} {fs gs : Frames} (hf : f.Alike path g) (hfs : Frames.Alike path fs gs) :
    Frames.Alike path (f :: fs) (g :: gs)

namespace Frames.Alike

variable {path : List Char} {fs gs ks : Frames}

theorem refl : ∀ fs : Frames, Frames.Alike path fs fs
  | [] => .nil
  | f :: fs => .cons (.refl f) (refl fs)

theorem trans (h : Frames.Alike path fs gs) (h' : Frames.Alike path gs ks) :
    Frames.Alike path fs ks := by
  induction h generalizing ks with
  | nil => exact h'
  | cons hf _ ih =>
    cases h' with
    | cons hf' hfs' => exact .cons (hf.trans hf') (ih hfs')

/-- A path leads to the same value through both. -/
theorem find? (h : Frames.Alike path fs gs) (ns : Namespace) :
    gs.find? ns path = fs.find? ns path := by
  induction h with
  | nil => rfl
  | cons hf _ ih => rw [Frames.find?, Frames.find?, hf.find?, hf.isMacro, ih]

theorem declare {name : String} (hname : ¬ Names path name) (v : Value) :
    ∀ fs : Frames, Frames.Alike path fs (fs.declare name v)
  | [] => .nil
  | f :: fs => .cons (.insert hname v f) (refl fs)

theorem declareGlobal {name : String} (hname : ¬ Names path name) (v : Value) :
    ∀ fs : Frames, Frames.Alike path fs (fs.declareGlobal name v)
  | [] => .nil
  | f :: fs => by
    rw [Frames.declareGlobal]
    split
    · exact .cons (.refl f) (declareGlobal hname v fs)
    · exact .cons (.insert hname v f) (refl fs)

/-- The stack under the innermost frame. -/
theorem under {f : Frame} (h : Frames.Alike path (f :: fs) gs) :
    Frames.Alike path fs (gs.drop 1) := by
  cases h with
  | cons _ hfs => exact hfs

end Frames.Alike

/-! ### Bound names -/

mutual

/-- The names that parts bind. -/
def boundIn : List Node → List String
  | [] => []
  | node :: rest => node.bound ++ boundIn rest
termination_by structural nodes => nodes

/-- The names that a part binds: the assigned one, those of a loop, and those inside.  A macro binds
its parameters where it is called, and nothing where it stands. -/
def Node.bound : Node → List String
  | .assign _ _ name _ => [name]
  | .cond branches none _ _ => branches.bound
  | .cond branches (some otherwise) _ _ => branches.bound ++ boundIn otherwise
  | .loop _ key item _ body none _ => key.toList ++ item :: boundIn body
  | .loop _ key item _ body (some empty) _ =>
    key.toList ++ item :: (boundIn body ++ boundIn empty)
  | .filtered _ _ _ body _ => boundIn body
  | .block _ _ body _ => boundIn body
  | _ => []
termination_by structural node => node

/-- The names that the bodies of branches bind. -/
def Branches.bound : Branches → List String
  | .nil => []
  | .cons _ _ body rest => boundIn body ++ rest.bound
termination_by structural branches => branches

end

/-- None of some names stands for a path. -/
def Spared (path : List Char) (names : List String) : Prop :=
  ∀ name ∈ names, ¬ Names path name

namespace Spared

variable {path : List Char} {as bs : List String}

theorem left (h : Spared path (as ++ bs)) : Spared path as :=
  fun name hname => h name (List.mem_append_left _ hname)

theorem right (h : Spared path (as ++ bs)) : Spared path bs :=
  fun name hname => h name (List.mem_append_right _ hname)

theorem tail {name : String} (h : Spared path (name :: as)) : Spared path as :=
  fun other hother => h other (List.mem_cons_of_mem _ hother)

end Spared

/-! ### One rendering -/

/-- The turns of a loop leave the frames alike if its body does. -/
theorem alike_of_renderLoop {path : List Char} {body : Frames → Rendered} {key : Option String}
    {item : String} {length : Nat}
    (hbody : ∀ fs text gs flow, body fs = some (text, gs, flow) → Frames.Alike path fs gs) :
    ∀ (entries : List (String × Value)) (position : Nat) (fs : Frames) (text : List Char)
      (gs : Frames), renderLoop body key item length position entries fs = some (text, gs) →
        Frames.Alike path fs gs
  | [], position, fs, text, gs, h => by
    cases h
    exact .refl fs
  | (k, v) :: rest, position, fs, text, gs, h => by
    rw [renderLoop] at h
    obtain ⟨⟨shown, behind, flow⟩, hturn, h⟩ := Option.bind_eq_some_iff.1 h
    have hunder := (hbody _ _ _ _ hturn).under
    dsimp only at h
    split at h
    · cases h
      exact hunder
    · obtain ⟨⟨more, last⟩, hmore, he⟩ := Option.map_eq_some_iff.1 h
      cases he
      exact hunder.trans (alike_of_renderLoop hbody rest _ _ _ _ hmore)

section Rendering

variable {path : List Char} {c : Context}

mutual

/-- Rendering parts leaves the frames as they were, but for the names they bind. -/
theorem alike_of_renderNodes : (nodes : List Node) → (fs : Frames) →
    (out : List Char × Frames × Flow) → Spared path (boundIn nodes) →
      renderNodes c nodes fs = some out → Frames.Alike path fs out.2.1
  | [], fs, out, _, h => by
    cases h
    exact .refl fs
  | node :: rest, fs, out, hspared, h => by
    obtain ⟨⟨text, gs, flow⟩, hnode, h⟩ := Option.bind_eq_some_iff.1 h
    have hfirst := alike_of_renderNode node fs _ hspared.left hnode
    dsimp only at h
    split at h
    · obtain ⟨more, hrest, rfl⟩ := Option.map_eq_some_iff.1 h
      exact hfirst.trans (alike_of_renderNodes rest gs more hspared.right hrest)
    · cases h
      exact hfirst
termination_by structural nodes => nodes

/-- So does rendering one part. -/
theorem alike_of_renderNode : (node : Node) → (fs : Frames) →
    (out : List Char × Frames × Flow) → Spared path node.bound →
      renderNode c node fs = some out → Frames.Alike path fs out.2.1
  | .text _, fs, out, _, h => by
    cases h
    exact .refl fs
  | .display _ _, fs, out, _, h => by
    obtain ⟨v, -, rfl⟩ := Option.map_eq_some_iff.1 h
    exact .refl fs
  | .assign _ isGlobal name _, fs, out, hspared, h => by
    obtain ⟨v, -, rfl⟩ := Option.map_eq_some_iff.1 h
    have hname : ¬ Names path name := hspared name List.mem_cons_self
    cases isGlobal with
    | true => exact .declareGlobal hname v fs
    | false => exact .declare hname v fs
  | .comment _, fs, out, _, h => by
    cases h
    exact .refl fs
  | .raw _ _ _, fs, out, _, h => by
    cases h
    exact .refl fs
  | .cond branches none _ _, fs, out, hspared, h => by
    refine alike_of_renderBranches branches _ fs out hspared (fun none? he => ?_) h
    cases he
    exact .refl fs
  | .cond branches (some otherwise) _ _, fs, out, hspared, h =>
    alike_of_renderBranches branches _ fs out hspared.left
      (fun last he => alike_of_renderNodes otherwise fs last hspared.right he) h
  | .loop _ key item source body none _, fs, out, hspared, h => by
    rw [renderNode] at h
    split at h
    · obtain ⟨entries, -, h⟩ := Option.bind_eq_some_iff.1 h
      obtain ⟨⟨text, gs⟩, hturns, rfl⟩ := Option.map_eq_some_iff.1 h
      exact alike_of_renderLoop
        (fun fs text gs flow he => alike_of_renderNodes body fs _ hspared.right.tail he)
        entries 0 fs text gs hturns
    · cases h
  | .loop _ key item source body (some empty) _, fs, out, hspared, h => by
    rw [renderNode] at h
    split at h
    · obtain ⟨entries, -, h⟩ := Option.bind_eq_some_iff.1 h
      split at h
      · exact alike_of_renderNodes empty fs out hspared.right.tail.right h
      · obtain ⟨⟨text, gs⟩, hturns, rfl⟩ := Option.map_eq_some_iff.1 h
        exact alike_of_renderLoop
          (fun fs text gs flow he => alike_of_renderNodes body fs _ hspared.right.tail.left he)
          entries 0 fs text gs hturns
    · cases h
  | .filtered _ name args body _, fs, out, hspared, h => by
    obtain ⟨⟨text, gs, flow⟩, hbody, h⟩ := Option.bind_eq_some_iff.1 h
    have hinside := alike_of_renderNodes body fs _ hspared hbody
    dsimp only at h
    split at h
    · cases h
      exact hinside
    · obtain ⟨filter, -, h⟩ := Option.bind_eq_some_iff.1 h
      obtain ⟨args, -, h⟩ := Option.bind_eq_some_iff.1 h
      obtain ⟨v, -, rfl⟩ := Option.map_eq_some_iff.1 h
      exact hinside
  | .block _ _ body _, fs, out, hspared, h => alike_of_renderNodes body fs out hspared h
  | .inclusion _ mayBeMissing, fs, out, _, h => by
    rw [renderNode] at h
    split at h
    · cases h
      exact .refl fs
    · cases h
  | .macroDef _ _ _ _ _, fs, out, _, h => by
    cases h
    exact .refl fs
  | .skip _, fs, out, _, h => by
    cases h
    exact .refl fs
  | .leave _, fs, out, _, h => by
    cases h
    exact .refl fs
termination_by structural node => node

/-- So does rendering the branch that is taken. -/
theorem alike_of_renderBranches : (branches : Branches) → (otherwise : Rendered) →
    (fs : Frames) → (out : List Char × Frames × Flow) → Spared path branches.bound →
      (∀ last, otherwise = some last → Frames.Alike path fs last.2.1) →
        renderBranches c branches otherwise fs = some out → Frames.Alike path fs out.2.1
  | .nil, otherwise, fs, out, _, hlast, h => hlast out h
  | .cons _ e body rest, otherwise, fs, out, hspared, hlast, h => by
    obtain ⟨b, -, h⟩ := Option.bind_eq_some_iff.1 h
    split at h
    · exact alike_of_renderNodes body fs out hspared.left h
    · exact alike_of_renderBranches rest otherwise fs out hspared.right hlast h
termination_by structural branches => branches

end

end Rendering

/-! ### The parts that are reached -/

/-- The parts of the branch that is taken, or those behind all branches. -/
def Branches.taken? (c : Context) (fs : Frames) (otherwise : List Node) :
    Branches → Option (List Node)
  | .nil => some otherwise
  | .cons _ e body rest =>
    (evalTruth c fs e).bind fun b => if b then some body else rest.taken? c fs otherwise

/-- The state of a loop at one of its entries. -/
def Cursor.ofEntry (key : Option String) (item : String) (length position : Nat) (k : String)
    (v : Value) : Cursor :=
  { keyName := key, itemName := item, key := k, item := v, position, length }

/-- The turns that a loop takes from some entries on: the entry of the turn and the frames in front
of it. -/
inductive Turns (body : Frames → Rendered) (key : Option String) (item : String) (length : Nat) :
    Nat → List (String × Value) → Frames → Cursor → Frames → Prop where
  | here {position : Nat} {k : String} {v : Value} {rest : List (String × Value)} {fs : Frames} :
    Turns body key item length position ((k, v) :: rest) fs
      (.ofEntry key item length position k v) fs
  | next {position : Nat} {k : String} {v : Value} {rest : List (String × Value)}
    {fs gs hs : Frames} {text : List Char} {flow : Flow} {cur : Cursor}
    (hturn : body ({ cursor := some (.ofEntry key item length position k v) } :: fs)
      = some (text, gs, flow)) (hflow : flow ≠ .leave)
    (hrest : Turns body key item length (position + 1) rest (gs.drop 1) cur hs) :
    Turns body key item length position ((k, v) :: rest) fs cur hs

/-- A part that the rendering of some parts reaches, and the frames it is rendered under. -/
inductive Visits (c : Context) : List Node → Frames → Node → Frames → Prop where
  | here {node : Node} {rest : List Node} {fs : Frames} : Visits c (node :: rest) fs node fs
  | later {first node : Node} {rest : List Node} {fs gs hs : Frames} {text : List Char}
    (hfirst : renderNode c first fs = some (text, gs, .next)) (h : Visits c rest gs node hs) :
    Visits c (first :: rest) fs node hs
  | branch {branches : Branches} {otherwise : Option (List Node)} {elseTrim stop : Trim}
    {body rest : List Node} {node : Node} {fs gs : Frames}
    (htaken : branches.taken? c fs (otherwise.getD []) = some body) (h : Visits c body fs node gs) :
    Visits c (.cond branches otherwise elseTrim stop :: rest) fs node gs
  | turn {start stop : Trim} {key : Option String} {item : String} {source : Expr}
    {body rest : List Node} {empty : Option (List Node)} {entries : List (String × Value)}
    {cur : Cursor} {node : Node} {fs gs hs : Frames}
    (hentries : (evalExpr c fs source).bind (loopEntries? key.isSome) = some entries)
    (hturns : Turns (renderNodes c body) key item entries.length 0 entries fs cur gs)
    (h : Visits c body ({ cursor := some cur } :: gs) node hs) :
    Visits c (.loop start key item source body empty stop :: rest) fs node hs
  | empty {start stop : Trim} {key : Option String} {item : String} {source : Expr}
    {body empty rest : List Node} {node : Node} {fs gs : Frames}
    (hentries : (evalExpr c fs source).bind (loopEntries? key.isSome) = some [])
    (h : Visits c empty fs node gs) :
    Visits c (.loop start key item source body (some empty) stop :: rest) fs node gs
  | filtered {start stop : Trim} {name : String} {args : Args} {body rest : List Node} {node : Node}
    {fs gs : Frames} (h : Visits c body fs node gs) :
    Visits c (.filtered start name args body stop :: rest) fs node gs
  | block {start stop : Trim} {name : String} {body rest : List Node} {node : Node} {fs gs : Frames}
    (h : Visits c body fs node gs) : Visits c (.block start name body stop :: rest) fs node gs

section Rendered

variable {c : Context}

/-- The branches are rendered as the one that is taken. -/
theorem renderBranches_of_taken {fs : Frames} {otherwise body : List Node} :
    ∀ {branches : Branches}, branches.taken? c fs otherwise = some body →
      renderBranches c branches (renderNodes c otherwise fs) fs = renderNodes c body fs
  | .nil, h => by
    cases h
    rfl
  | .cons _ e _ rest, h => by
    obtain ⟨b, hb, h⟩ := Option.bind_eq_some_iff.1 h
    rw [renderBranches, hb, Option.bind_some]
    split at h
    · next htrue =>
      cases h
      rw [if_pos htrue]
    · next hfalse => rw [if_neg hfalse, renderBranches_of_taken h]

/-- A loop that is rendered has rendered its body in each turn. -/
theorem rendered_of_turns {body : Frames → Rendered} {key : Option String} {item : String}
    {length position : Nat} {entries : List (String × Value)} {fs gs : Frames} {cur : Cursor}
    (h : Turns body key item length position entries fs cur gs) {out : List Char × Frames}
    (hout : renderLoop body key item length position entries fs = some out) :
    ∃ turn, body ({ cursor := some cur } :: gs) = some turn := by
  induction h generalizing out with
  | here =>
    obtain ⟨turn, hturn, -⟩ := Option.bind_eq_some_iff.1 hout
    exact ⟨turn, hturn⟩
  | next hturn hflow _ ih =>
    obtain ⟨turn, hturn', hout⟩ := Option.bind_eq_some_iff.1 hout
    obtain rfl := Option.some.inj (hturn'.symm.trans hturn)
    dsimp only at hout
    rw [if_neg hflow] at hout
    obtain ⟨more, hmore, -⟩ := Option.map_eq_some_iff.1 hout
    exact ih hmore

/-- A loop over some entries is rendered turn by turn. -/
theorem renderLoop_of_renderNode {start stop : Trim} {key : Option String} {item : String}
    {source : Expr} {body : List Node} {empty : Option (List Node)}
    {entries : List (String × Value)} {fs : Frames} {out : List Char × Frames × Flow}
    (hentries : (evalExpr c fs source).bind (loopEntries? key.isSome) = some entries)
    (hsome : entries ≠ [])
    (h : renderNode c (.loop start key item source body empty stop) fs = some out) :
    ∃ turns, renderLoop (renderNodes c body) key item entries.length 0 entries fs
      = some turns := by
  cases empty with
  | none =>
    rw [renderNode] at h
    split at h
    · rw [hentries, Option.bind_some] at h
      obtain ⟨turns, hturns, -⟩ := Option.map_eq_some_iff.1 h
      exact ⟨turns, hturns⟩
    · cases h
  | some empty =>
    rw [renderNode] at h
    split at h
    · rw [hentries, Option.bind_some, if_neg fun he => hsome (List.isEmpty_iff.1 he)] at h
      obtain ⟨turns, hturns, -⟩ := Option.map_eq_some_iff.1 h
      exact ⟨turns, hturns⟩
    · cases h

/-- When parts are rendered, so is every part that is reached. -/
theorem rendered_of_visits {nodes : List Node} {fs gs : Frames} {node : Node}
    (h : Visits c nodes fs node gs) {out : List Char × Frames × Flow}
    (hout : renderNodes c nodes fs = some out) : ∃ shown, renderNode c node gs = some shown := by
  induction h generalizing out with
  | here =>
    obtain ⟨shown, hshown, -⟩ := Option.bind_eq_some_iff.1 hout
    exact ⟨shown, hshown⟩
  | later hfirst _ ih =>
    rw [renderNodes, hfirst, Option.bind_some] at hout
    dsimp only at hout
    rw [if_pos rfl] at hout
    obtain ⟨more, hmore, -⟩ := Option.map_eq_some_iff.1 hout
    exact ih hmore
  | @branch _ otherwise _ _ _ _ _ _ _ htaken _ ih =>
    obtain ⟨shown, hshown, -⟩ := Option.bind_eq_some_iff.1 hout
    have hbody := renderBranches_of_taken htaken
    cases otherwise with
    | none => exact ih (hbody.symm.trans hshown)
    | some otherwise => exact ih (hbody.symm.trans hshown)
  | @turn _ _ _ _ _ _ _ _ entries _ _ _ _ _ hentries hturns _ ih =>
    obtain ⟨shown, hshown, -⟩ := Option.bind_eq_some_iff.1 hout
    have hsome : entries ≠ [] := by
      rintro rfl
      cases hturns
    obtain ⟨out, hout⟩ := renderLoop_of_renderNode hentries hsome hshown
    obtain ⟨turn, hturn⟩ := rendered_of_turns hturns hout
    exact ih hturn
  | empty hentries _ ih =>
    obtain ⟨shown, hshown, -⟩ := Option.bind_eq_some_iff.1 hout
    rw [renderNode] at hshown
    split at hshown
    · rw [hentries, Option.bind_some] at hshown
      exact ih hshown
    · cases hshown
  | filtered _ ih =>
    obtain ⟨shown, hshown, -⟩ := Option.bind_eq_some_iff.1 hout
    obtain ⟨inside, hinside, -⟩ := Option.bind_eq_some_iff.1 hshown
    exact ih hinside
  | block _ ih =>
    obtain ⟨shown, hshown, -⟩ := Option.bind_eq_some_iff.1 hout
    exact ih hshown

end Rendered

/-- A stack of frames on top of another one: what is on top binds nothing that a path stands for,
and what is below is alike. -/
inductive Frames.Above (path : List Char) : Frames → Frames → Prop where
  | alike {fs gs : Frames} (h : Frames.Alike path fs gs) : Frames.Above path fs gs
  | push {f : Frame} {fs gs : Frames} (hfree : f.Free path) (hblock : f.isMacro = false)
    (h : Frames.Above path fs gs) : Frames.Above path fs (f :: gs)

theorem Frame.Free.congr {path : List Char} {f g : Frame} (h : f.Free path)
    (halike : f.Alike path g) : g.Free path where
  vars := halike.vars.trans h.vars
  keys cur hcur := h.keys cur (halike.cursor ▸ hcur)
  items cur hcur := h.items cur (halike.cursor ▸ hcur)

namespace Frames.Above

variable {path : List Char} {fs gs hs : Frames}

theorem append_alike (h : Frames.Above path fs gs) (halike : Frames.Alike path gs hs) :
    Frames.Above path fs hs := by
  induction h generalizing hs with
  | alike h => exact .alike (h.trans halike)
  | push hfree hblock _ ih =>
    cases halike with
    | cons hf hfs => exact .push (hfree.congr hf) (hf.isMacro.trans hblock) (ih hfs)

theorem trans (h : Frames.Above path fs gs) (h' : Frames.Above path gs hs) :
    Frames.Above path fs hs := by
  induction h' with
  | alike halike => exact h.append_alike halike
  | push hfree hblock _ ih => exact .push hfree hblock (ih h)

/-- A path leads to the same value through both. -/
theorem find? (h : Frames.Above path fs gs) (hstate : String.ofList path ∉ loopStates)
    (ns : Namespace) : gs.find? ns path = fs.find? ns path := by
  induction h with
  | alike h => exact h.find? ns
  | push hfree hblock _ ih =>
    rw [Frames.find?, hfree.find?_eq_none hstate, hblock]
    exact ih

end Frames.Above

section Reached

variable {path : List Char} {c : Context}

/-- A branch binds names of its condition only. -/
theorem spared_of_taken {fs : Frames} {otherwise body : List Node} : ∀ {branches : Branches},
    Spared path branches.bound → Spared path (boundIn otherwise) →
      branches.taken? c fs otherwise = some body → Spared path (boundIn body)
  | .nil, _, hotherwise, h => by
    cases h
    exact hotherwise
  | .cons _ e _ rest, hspared, hotherwise, h => by
    obtain ⟨b, -, h⟩ := Option.bind_eq_some_iff.1 h
    split at h
    · cases h
      exact hspared.left
    · exact spared_of_taken hspared.right hotherwise h

/-- The names of a condition are those of its branches and of what stands behind them. -/
theorem spared_of_cond {branches : Branches} {otherwise : Option (List Node)} {elseTrim stop : Trim}
    (h : Spared path (Node.cond branches otherwise elseTrim stop).bound) :
    Spared path branches.bound ∧ Spared path (boundIn (otherwise.getD [])) := by
  cases otherwise with
  | none => exact ⟨h, nofun⟩
  | some otherwise => exact ⟨h.left, h.right⟩

/-- The names of a loop, those of its body, and those of its alternative. -/
theorem spared_of_loop {start stop : Trim} {key : Option String} {item : String} {source : Expr}
    {body : List Node} {empty : Option (List Node)}
    (h : Spared path (Node.loop start key item source body empty stop).bound) :
    Spared path (key.toList ++ [item]) ∧ Spared path (boundIn body) ∧
      Spared path (boundIn (empty.getD [])) := by
  have hnames {names : List String} (h : Spared path (key.toList ++ item :: names)) :
      Spared path (key.toList ++ [item]) := by
    intro name hname
    refine h name ?_
    rcases List.mem_append.1 hname with hkey | hitem
    · exact List.mem_append_left _ hkey
    · rw [List.mem_singleton.1 hitem]
      exact List.mem_append_right _ List.mem_cons_self
  cases empty with
  | none => exact ⟨hnames h, h.right.tail, nofun⟩
  | some empty => exact ⟨hnames h, h.right.tail.left, h.right.tail.right⟩

/-- In front of each turn of a loop the frames are alike, and the turn is in a frame of the loop. -/
theorem alike_of_turns {body : Frames → Rendered} {key : Option String} {item : String}
    {length position : Nat} {entries : List (String × Value)} {fs gs : Frames} {cur : Cursor}
    (hbody : ∀ fs out, body fs = some out → Frames.Alike path fs out.2.1)
    (h : Turns body key item length position entries fs cur gs) :
    Frames.Alike path fs gs ∧ cur.keyName = key ∧ cur.itemName = item := by
  induction h with
  | here => exact ⟨.refl _, rfl, rfl⟩
  | next hturn _ _ ih => exact ⟨(hbody _ _ hturn).under.trans ih.1, ih.2⟩

/-- The frames under which a part is reached stand on those in front of the rendering. -/
theorem above_of_visits {nodes : List Node} {fs gs : Frames} {node : Node}
    (h : Visits c nodes fs node gs) (hspared : Spared path (boundIn nodes)) :
    Frames.Above path fs gs := by
  induction h with
  | here => exact .alike (.refl _)
  | later hfirst _ ih =>
    have hfirst := alike_of_renderNode _ _ _ hspared.left hfirst
    exact (Frames.Above.alike hfirst).trans (ih hspared.right)
  | branch htaken _ ih =>
    have ⟨hbranches, hotherwise⟩ := spared_of_cond hspared.left
    exact ih (spared_of_taken hbranches hotherwise htaken)
  | @turn _ _ key item _ body _ _ _ cur _ fs gs _ _ hturns _ ih =>
    have ⟨hnames, hbody, _⟩ := spared_of_loop hspared.left
    have ⟨hbefore, hkey, hitem⟩ := alike_of_turns
      (fun fs out he => alike_of_renderNodes body fs out hbody he) hturns
    have hframe : Frame.Free path { cursor := some cur } := by
      refine ⟨rfl, fun other hother name hname => ?_, fun other hother => ?_⟩
      · cases hother
        exact hnames name (List.mem_append_left _ (Option.mem_toList.2 (hkey ▸ hname)))
      · cases hother
        exact hitem ▸ hnames item (List.mem_append_right _ List.mem_cons_self)
    exact (Frames.Above.push hframe rfl (.alike hbefore)).trans (ih hbody)
  | empty _ _ ih =>
    have ⟨_, _, hempty⟩ := spared_of_loop hspared.left
    exact ih hempty
  | filtered _ ih => exact ih hspared.left
  | block _ ih => exact ih hspared.left

/-- **Paths keep their values.**  At every part that rendering reaches, a path leads to the value it
leads to at the start, unless a name that stands for it is bound on the way. -/
theorem find?_of_visits {nodes : List Node} {fs gs : Frames} {node : Node}
    (h : Visits c nodes fs node gs) (hspared : Spared path (boundIn nodes))
    (hstate : String.ofList path ∉ loopStates) (ns : Namespace) :
    gs.find? ns path = fs.find? ns path :=
  (above_of_visits h hspared).find? hstate ns

end Reached

end Runbook.Template
