import Runbook.Proofs.Run.Inner
import Runbook.Proofs.Value.Order
/-!
# Loops

A loop runs its steps once for every entry of its collection, in order, up to the first run that
fails, and each of these runs has variables of its own: the variables around the loop, the key and
the value, and nothing else.  What the runs do to their variables is lost, so neither a later run
nor the variables around the loop can tell.  This file says so for loops over any collection, with
any steps inside, at any depth.

* `Foreach.Collects`, `Foreach.collects_collection?` — the collection of a loop, or why there is
  none;
* `Visits`, `visits_of_entries?` — the entries of a collection, in the order of its places or keys;
* `KeyText`, `exists_keyText` — how the key of an entry is written in the names of steps;
* `Foreach.Fresh`, `Foreach.fresh_iteration` — the variables of one round;
* `Round`, `Round.Runs`, `Chained` — one round of a loop, what it runs on what, and rounds one after
  the other;
* `Stopped` — which rounds there are, and what the loop comes to;
* `runEntries_goes` — all of this for the rounds of a loop that was loaded;
* `Setup.Loops`, `Setup.foreach_visits_every_entry` — and for every step that is a loop, also when
  it never comes to its first round.
-/

namespace Runbook

/-! ### The collection of a loop -/

namespace Foreach

/-- A loop names no variable that holds more than null. -/
def Unheld (loop : Foreach) (vars : Namespace) : Prop :=
  ∀ v, Fields.get? loop.collection vars = some v → v = .null

/-- The collection of a loop, or why there is none: the loop holds it itself, or, where it holds
nothing but null, a variable does. -/
inductive Collects (loop : Foreach) (vars : Namespace) : Except StepError Value → Prop
  | own :
      loop.iterable ≠ .null →
      Collects loop vars (.ok loop.iterable)
  | held {v} :
      loop.iterable = .null →
      Fields.get? loop.collection vars = some v →
      v ≠ .null →
      Collects loop vars (.ok v)
  | unnamed :
      loop.iterable = .null →
      loop.Unheld vars →
      loop.collection = "" →
      Collects loop vars (.error (.definition "either iterable or variable must be set"))
  | missing :
      loop.iterable = .null →
      loop.Unheld vars →
      loop.collection ≠ "" →
      Collects loop vars
        (.error (.definition ("variable " ++ Text.quoted loop.collection ++ " does not exist")))

/-- A value is null, or it is present. -/
theorem present?_some {v : Value} (h : v ≠ .null) : present? (some v) = some v := by
  cases v with
  | null => exact absurd rfl h
  | _ => rfl

theorem collection?_of_null {loop : Foreach} (h : loop.iterable = .null) (vars : Namespace) :
    loop.collection? vars
      = match present? (Fields.get? loop.collection vars) with
        | some v => .ok v
        | none =>
          if loop.collection = "" then .error (.definition "either iterable or variable must be set")
          else .error (.definition
            ("variable " ++ Text.quoted loop.collection ++ " does not exist")) := by
  rw [collection?, h]
  cases present? (Fields.get? loop.collection vars) <;> rfl

/-- **The collection of a loop.** -/
theorem collects_collection? (loop : Foreach) (vars : Namespace) :
    loop.Collects vars (loop.collection? vars) := by
  by_cases hown : loop.iterable = .null
  · rw [collection?_of_null hown]
    by_cases hheld : loop.Unheld vars
    · have hnone : present? (Fields.get? loop.collection vars) = none := by
        cases hget : Fields.get? loop.collection vars with
        | none => rfl
        | some v => rw [hheld v hget]; rfl
      rw [hnone]
      dsimp only
      split
      · next hname => exact .unnamed hown hheld hname
      · next hname => exact .missing hown hheld hname
    · obtain ⟨v, hv⟩ := Classical.not_forall.1 hheld
      obtain ⟨hget, hnull⟩ := Classical.not_imp.1 hv
      rw [hget, present?_some hnull]
      exact .held hown hget hnull
  · rw [collection?, present?_some hown]
    exact .own hown

end Foreach

/-! ### The entries of a collection -/

theorem getElem?_numbered (items : List Value) (index place : Nat) :
    (numbered index items)[place]? = items[place]?.map (.nat (index + place), ·) := by
  induction items generalizing index place with
  | nil => rfl
  | cons item items ih =>
    cases place with
    | zero => rfl
    | succ place =>
      have hplace : index + 1 + place = index + (place + 1) := by omega
      rw [numbered, List.getElem?_cons_succ, ih, hplace, List.getElem?_cons_succ]

/-- The entries of a collection: the items of a list with their places in order, or the values of a
map with their keys, which ascend. -/
def Visits (entries : List (Value × Value)) : Value → Prop
  | .arr items => ∀ place : Nat, entries[place]? = items[place]?.map (.nat place, ·)
  | .obj fields => entries = fields.map (fun field => (.str field.1, field.2)) ∧
      (Fields.Ordered fields →
        entries.Pairwise fun a b => ∃ k l, a.1 = .str k ∧ b.1 = .str l ∧ k < l)
  | _ => False

theorem visits_of_entries? {collection : Value} {entries : List (Value × Value)}
    (h : entries? collection = .ok entries) : Visits entries collection := by
  cases collection with
  | arr items =>
    cases h
    intro place
    simpa using getElem?_numbered items 0 place
  | obj fields =>
    cases h
    refine ⟨rfl, fun hordered => ?_⟩
    rw [List.pairwise_map]
    exact hordered.imp fun hlt => ⟨_, _, rfl, rfl, hlt⟩
  | _ => cases h

/-- A value that is neither a list nor a map. -/
def Entryless (v : Value) : Prop :=
  (∀ items, v ≠ .arr items) ∧ ∀ fields, v ≠ .obj fields

/-- The error of a loop over a value that has no entries. -/
def noEntries (v : Value) : StepError :=
  .definition ("foreach: invalid variable type " ++ Text.quoted (typeName v)
    ++ " (expected slice or map)")

theorem entries?_error {collection : Value} {e : StepError} (h : entries? collection = .error e) :
    Entryless collection ∧ e = noEntries collection := by
  cases collection with
  | arr items => cases h
  | obj fields => cases h
  | _ =>
    cases h
    exact ⟨⟨nofun, nofun⟩, rfl⟩

/-- How a key is written: the key of a map as it is, and the place of an item in digits.  A place
that is no machine word, which no list in a memory has, would be written as a double. -/
inductive KeyText : Value → String → Prop
  | name (key : String) : KeyText (.str key) key
  | place {n : Nat} : (n : Int) < Number.unsignedBound → KeyText (.nat n) (Text.natText n)
  | far {n : Nat} : Number.unsignedBound ≤ (n : Int) → KeyText (.nat n) (Value.nat n).text

theorem text_nat {n : Nat} (h : (n : Int) < Number.unsignedBound) :
    (Value.nat n).text = Text.natText n := by
  have hword : Value.nat n = .num (.int n) := by
    have hmin : Number.minInt ≤ (n : Int) := Int.le_trans (by decide) (Int.natCast_nonneg n)
    rw [Value.nat, Value.int, Number.ofInt, if_pos ⟨hmin, h⟩]
  rw [hword, Value.text, Number.text, Text.intText, if_neg (Int.not_lt.2 (Int.natCast_nonneg n)),
    Int.natAbs_natCast]

/-- What a key adds to the names of steps. -/
theorem keySuffix_eq {key : Value} {shown : String} (h : KeyText key shown) :
    keySuffix key = "_" ++ shown := by
  cases h with
  | name key => rfl
  | place hword => rw [← text_nat hword]; rfl
  | far _ => rfl

theorem exists_keyText_nat (n : Nat) : ∃ shown, KeyText (.nat n) shown := by
  by_cases h : (n : Int) < Number.unsignedBound
  · exact ⟨_, .place h⟩
  · exact ⟨_, .far (Int.not_lt.1 h)⟩

theorem exists_keyText_numbered {items : List Value} {index : Nat} {entry : Value × Value}
    (h : entry ∈ numbered index items) : ∃ shown, KeyText entry.1 shown := by
  induction items generalizing index with
  | nil => cases h
  | cons item items ih =>
    rcases List.mem_cons.1 h with rfl | hrest
    · exact exists_keyText_nat index
    · exact ih hrest

/-- Every key of a collection can be written. -/
theorem exists_keyText {collection : Value} {entries : List (Value × Value)}
    (h : entries? collection = .ok entries) :
    ∀ entry ∈ entries, ∃ shown, KeyText entry.1 shown := by
  intro entry hentry
  cases collection with
  | arr items =>
    cases h
    exact exists_keyText_numbered hentry
  | obj fields =>
    cases h
    obtain ⟨field, -, rfl⟩ := List.mem_map.1 hentry
    exact ⟨field.1, .name field.1⟩
  | _ => cases h

/-! ### The variables of a round -/

namespace Foreach

/-- The name under which a round finds the variables around the loop. -/
def parent (loop : Foreach) : String :=
  orDefault loop.parentName "parent"

/-- The name under which a round finds its key. -/
def key (loop : Foreach) : String :=
  orDefault loop.keyName "key"

/-- The name under which a round finds its value. -/
def value (loop : Foreach) : String :=
  orDefault loop.valueName "value"

/-- The three names of a loop are different ones. -/
structure Apart (loop : Foreach) : Prop where
  parent_key : loop.parent ≠ loop.key
  parent_value : loop.parent ≠ loop.value
  key_value : loop.key ≠ loop.value

/-- Variables of a round: exactly three, which are the variables around the loop, the key and the
value. -/
structure Fresh (loop : Foreach) (outer : Namespace) (entry : Value × Value)
    (vars : Namespace) : Prop where
  parent : Fields.get? loop.parent vars = some (.obj outer)
  key : Fields.get? loop.key vars = some entry.1
  value : Fields.get? loop.value vars = some entry.2
  other : ∀ name, name ≠ loop.parent → name ≠ loop.key → name ≠ loop.value →
    Fields.get? name vars = none
  three : vars.length = 3

theorem iteration_eq (loop : Foreach) (outer : Namespace) (entry : Value × Value) :
    loop.iteration outer entry
      = ((Fields.insert loop.parent (.obj outer) []).insert loop.key entry.1).insert
          loop.value entry.2 := rfl

theorem fresh_iteration {loop : Foreach} (hapart : loop.Apart) (outer : Namespace)
    (entry : Value × Value) : loop.Fresh outer entry (loop.iteration outer entry) := by
  obtain ⟨hparentKey, hparentValue, hkeyValue⟩ := hapart
  have hkeyFree : Fields.get? loop.key (Fields.insert loop.parent (.obj outer) []) = none :=
    Fields.get?_insert_of_ne _ _ hparentKey.symm
  have hvalueFree : Fields.get? loop.value
      ((Fields.insert loop.parent (.obj outer) []).insert loop.key entry.1) = none := by
    rw [Fields.get?_insert_of_ne _ _ hkeyValue.symm]
    exact Fields.get?_insert_of_ne _ _ hparentValue.symm
  rw [iteration_eq]
  constructor
  · rw [Fields.get?_insert_of_ne _ _ hparentValue, Fields.get?_insert_of_ne _ _ hparentKey,
      Fields.get?_insert_self]
  · rw [Fields.get?_insert_of_ne _ _ hkeyValue, Fields.get?_insert_self]
  · rw [Fields.get?_insert_self]
  · intro name hparent hkey hvalue
    rw [Fields.get?_insert_of_ne _ _ hvalue, Fields.get?_insert_of_ne _ _ hkey,
      Fields.get?_insert_of_ne _ _ hparent, Fields.get?_nil]
  · rw [Fields.length_insert hvalueFree, Fields.length_insert hkeyFree]
    rfl

end Foreach

/-! ### Rounds -/

/-- One round of a loop: its entry, the state in which its run starts, and how this ends. -/
structure Round where
  entry : Value × Value
  start : State
  result : Except StepError Unit
  left : State

namespace Round

/-- A round runs the steps of the loop, under names that end with its key, and on variables that no
round before it has touched. -/
structure Runs (nested : Nested) (loop : Foreach) (steps : List Step) (outer : Namespace)
    (round : Round) : Prop where
  ran : ∃ shown, KeyText round.entry.1 shown ∧
    nested.run steps ("_" ++ shown) round.start = (round.result, round.left)
  fresh : loop.Fresh outer round.entry round.start.vars

end Round

/-- Each round goes on in the world that the one before it has left. -/
inductive Chained : World → List Round → World → Prop
  | nil {w} : Chained w [] w
  | cons {round rounds w w'} :
      round.start.world = w →
      Chained round.left.world rounds w' →
      Chained w (round :: rounds) w'

/-- Which rounds there are for entries, and what they come to: one round for every entry when all
of them succeed, and otherwise no round behind the first one that fails. -/
inductive Stopped (entries : List (Value × Value)) :
    List Round → Except StepError Unit → Prop
  | all {rounds} :
      rounds.map Round.entry = entries →
      (∀ round ∈ rounds, round.result = .ok ()) →
      Stopped entries rounds (.ok ())
  | failed {front last rounds e} :
      rounds = front ++ [last] →
      rounds.map Round.entry <+: entries →
      (∀ round ∈ front, round.result = .ok ()) →
      last.result = .error e →
      Stopped entries rounds (.error e)

namespace Stopped

/-- One more entry in front, whose round succeeds. -/
theorem cons {entries : List (Value × Value)} {rounds : List Round}
    {result : Except StepError Unit} (h : Stopped entries rounds result) (round : Round)
    (hok : round.result = .ok ()) :
    Stopped (round.entry :: entries) (round :: rounds) result := by
  cases h with
  | all hentries hall =>
    refine .all ?_ (List.forall_mem_cons.2 ⟨hok, hall⟩)
    rw [List.map_cons, hentries]
  | failed hsplit hentries hall hlast =>
    refine .failed (congrArg (round :: ·) hsplit) ?_ (List.forall_mem_cons.2 ⟨hok, hall⟩) hlast
    exact (List.prefix_cons_inj round.entry).2 hentries

/-- An entry whose round fails is the last one that is visited. -/
theorem failure (round : Round) {e : StepError} (hfailed : round.result = .error e)
    (entries : List (Value × Value)) : Stopped (round.entry :: entries) [round] (.error e) := by
  have hvisited : [round].map Round.entry <+: round.entry :: entries := ⟨entries, rfl⟩
  exact .failed (List.nil_append [round]).symm hvisited (List.forall_mem_nil _) hfailed

end Stopped

/-- **The rounds of a loop.**  The variables around the loop stay as they were. -/
theorem runEntries_goes {loop : Foreach} (hapart : loop.Apart) (nested : Nested)
    (steps : List Step) (entries : List (Value × Value))
    (hkeys : ∀ entry ∈ entries, ∃ shown, KeyText entry.1 shown) (s : State) :
    ∃ rounds : List Round,
      (∀ round ∈ rounds, round.Runs nested loop steps s.vars) ∧
      Chained s.world rounds (runEntries nested loop steps entries s).2.world ∧
      Stopped entries rounds (runEntries nested loop steps entries s).1 ∧
      (runEntries nested loop steps entries s).2.vars = s.vars := by
  induction entries generalizing s with
  | nil => exact ⟨[], List.forall_mem_nil _, .nil, .all rfl (List.forall_mem_nil _), rfl⟩
  | cons entry entries ih =>
    obtain ⟨⟨shown, hshown⟩, hmore⟩ := List.forall_mem_cons.1 hkeys
    rw [Setup.runEntries_cons, keySuffix_eq hshown]
    generalize hstart : State.mk (loop.iteration s.vars entry) s.world = start
    have hworld : start.world = s.world := by rw [← hstart]
    have hfresh : loop.Fresh s.vars entry start.vars := by
      rw [← hstart]
      exact loop.fresh_iteration hapart s.vars entry
    rcases hran : nested.run steps ("_" ++ shown) start with ⟨e | _, t⟩
    · have hruns : Round.Runs nested loop steps s.vars ⟨entry, start, .error e, t⟩ :=
        ⟨⟨shown, hshown, hran⟩, hfresh⟩
      exact ⟨[_], List.forall_mem_singleton.2 hruns, .cons hworld .nil,
        .failure ⟨entry, start, .error e, t⟩ rfl entries, rfl⟩
    · have hruns : Round.Runs nested loop steps s.vars ⟨entry, start, .ok (), t⟩ :=
        ⟨⟨shown, hshown, hran⟩, hfresh⟩
      obtain ⟨rounds, hrounds, hchained, hstopped, hvars⟩ := ih hmore { s with world := t.world }
      exact ⟨_ :: rounds, List.forall_mem_cons.2 ⟨hruns, hrounds⟩, .cons hworld hchained,
        hstopped.cons ⟨entry, start, .ok (), t⟩ rfl, hvars⟩

namespace Setup

/-- A loop whose collection is missing or cannot be visited does nothing. -/
theorem foreachAction_of_error (setup : Setup) (limit : Nat) {loop : Foreach} {s : State}
    {e : StepError} (h : (loop.collection? s.vars).bind entries? = .error e) :
    foreachAction (setup.lends limit) loop s = (.error e, s) := by
  rw [foreachAction, engine?_lends]
  dsimp only
  rw [h]

/-- A loop whose steps cannot be loaded does nothing. -/
theorem foreachAction_of_load_error {setup : Setup} (limit : Nat) {loop : Foreach} {s : State}
    {entries : List (Value × Value)} {e : ScenarioError}
    (hentries : (loop.collection? s.vars).bind entries? = .ok entries)
    (hload : setup.registry.steps loop.commands = .error e) :
    foreachAction (setup.lends limit) loop s = (.error (.scenario e), s) := by
  have hnested : (setup.nested limit).load loop.commands = .error e := hload
  rw [foreachAction, engine?_lends]
  dsimp only
  rw [hentries]
  dsimp only
  rw [hnested]

/-- What a loop does in the state `s`, and what it comes to.

* It fails before its first round, and then nothing is done: there is no collection, or one without
  entries, or the records of the loop are not loaded.
* Or it visits the entries of its collection with the steps that come of its records. -/
inductive Loops (setup : Setup) (limit : Nat) (loop : Foreach) (s : State) :
    Except StepError Unit × State → Prop
  | uncollected {e} :
      loop.Collects s.vars (.error e) →
      Loops setup limit loop s (.error e, s)
  | entryless {collection} :
      loop.Collects s.vars (.ok collection) →
      Entryless collection →
      Loops setup limit loop s (.error (noEntries collection), s)
  | unloaded {collection entries e} :
      loop.Collects s.vars (.ok collection) →
      Visits entries collection →
      setup.registry.steps loop.commands = .error e →
      Loops setup limit loop s (.error (.scenario e), s)
  | visited {collection entries steps rounds result t} :
      loop.Collects s.vars (.ok collection) →
      Visits entries collection →
      setup.registry.steps loop.commands = .ok steps →
      (∀ round ∈ rounds, round.Runs (setup.nested limit) loop steps s.vars) →
      Chained (loaded steps s).world rounds t.world →
      Stopped entries rounds result →
      Loops setup limit loop s (result, t)

theorem loops_foreachAction (setup : Setup) (limit : Nat) {loop : Foreach} (hapart : loop.Apart)
    (s : State) :
    setup.Loops limit loop s (foreachAction (setup.lends limit) loop s) ∧
      (foreachAction (setup.lends limit) loop s).2.vars = s.vars := by
  have hcollects := loop.collects_collection? s.vars
  rcases hcollection : loop.collection? s.vars with e | collection
  · have hnone : (loop.collection? s.vars).bind entries? = .error e := by
      rw [hcollection]
      rfl
    rw [hcollection] at hcollects
    rw [foreachAction_of_error setup limit hnone]
    exact ⟨.uncollected hcollects, rfl⟩
  · have hbind : (loop.collection? s.vars).bind entries? = entries? collection := by
      rw [hcollection]
      rfl
    rw [hcollection] at hcollects
    rcases hentries : entries? collection with e | entries
    · obtain ⟨hnone, rfl⟩ := entries?_error hentries
      rw [foreachAction_of_error setup limit (hbind.trans hentries)]
      exact ⟨.entryless hcollects hnone, rfl⟩
    · have hvisits := visits_of_entries? hentries
      rcases hload : setup.registry.steps loop.commands with e | steps
      · rw [foreachAction_of_load_error limit (hbind.trans hentries) hload]
        exact ⟨.unloaded hcollects hvisits hload, rfl⟩
      · obtain ⟨rounds, hrounds, hchained, hstopped, hvars⟩ :=
          runEntries_goes hapart (setup.nested limit) steps entries (exists_keyText hentries)
            (loaded steps s)
        rw [foreachAction_of_load (hbind.trans hentries) hload]
        exact ⟨.visited hcollects hvisits hload hrounds hchained hstopped, hvars⟩

/-- **What a loop does.**  It leaves the variables around it alone, whatever becomes of it.  It
fails at once when it has no entries or no steps; and otherwise its steps run once for every entry
in order, each time on fresh variables and under names that end with the key, until a run of them
fails. -/
theorem foreach_visits_every_entry (setup : Setup) (limit : Nat) (step : Step) (loop : Foreach)
    (hbody : step.body = .foreach loop) (hapart : loop.Apart) (s : State) :
    setup.Loops limit loop s (step.perform (setup.lends limit) s) ∧
      (step.perform (setup.lends limit) s).2.vars = s.vars := by
  have hperform : step.perform (setup.lends limit) s
      = foreachAction (setup.lends limit) loop s := by
    rw [Step.perform, hbody]
  rw [hperform]
  exact setup.loops_foreachAction limit hapart s

/-- A loop over a map with two keys. -/
def pairs : Foreach :=
  { iterable := .obj [("a", .bool true), ("b", .null)]
    commands := [.obj [("type", .str "message")]] }

/-- It has a round for each of them, and leaves what is around it. -/
theorem foreach_visits_every_entry_of_pairs :
    ({ body := .foreach pairs } : Step).body = .foreach pairs ∧ pairs.Apart ∧
    (∃ steps, ({} : Setup).registry.steps pairs.commands = .ok steps ∧ ∃ rounds : List Round,
      rounds.map Round.entry = [(.str "a", .bool true), (.str "b", .null)] ∧
      ∀ round ∈ rounds, round.Runs (({} : Setup).nested 1) pairs steps [("n", .null)]) ∧
    (({ body := .foreach pairs } : Step).perform (({} : Setup).lends 1)
      { vars := [("n", .null)], world := {} }).2.vars = [("n", .null)] := by
  have hapart : pairs.Apart := ⟨by decide, by decide, by decide⟩
  obtain ⟨hloops, hvars⟩ := foreach_visits_every_entry {} 1 { body := .foreach pairs } pairs rfl
    hapart { vars := [("n", .null)], world := {} }
  refine ⟨rfl, hapart, ?_, hvars⟩
  have hown : ∀ {found}, pairs.Collects [("n", .null)] found → found = .ok pairs.iterable := by
    intro found hfound
    cases hfound with
    | own => rfl
    | held hnull => cases hnull
    | unnamed hnull => cases hnull
    | missing hnull => cases hnull
  cases hloops with
  | @visited _ _ steps rounds _ _ hcollects hvisits hload hrounds _ hstopped =>
    cases hown hcollects
    obtain ⟨rfl, -⟩ := hvisits
    refine ⟨steps, hload, rounds, ?_, hrounds⟩
    cases hstopped with
    | all hvisited _ => exact hvisited

end Setup

end Runbook
