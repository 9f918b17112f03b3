import Mathlib.Data.List.Basic
import Runbook.Proofs.Run.Loading
import Runbook.Proofs.Run.Resting
import Runbook.Proofs.Value.Nesting
/-!
# Runs come to an end

A step may run lists of records that its own record holds, and no others unless it reads another
document.  So the engines inside one another go down the records that stand inside one another, and
every run ends.

* `Value.Holds`, `Registry.Builds.holds` — a list that stands in a record, and that a step runs no
  others;
* `Registry.Within`, `Setup.LoadsFrom.within` — steps whose records are nested so deep at most, and
  that loading does not nest records any deeper;
* `Settled`, `Setup.Comes`, `Setup.Ends` — a run that has ended, a step that has ended, and steps
  that come to an end, with how many were executed and how many engines stood inside one another;
* `Setup.Ends.run_eq` — an end is what a run comes to when enough engines may stand inside one
  another;
* `Setup.exists_comes`, `Setup.exists_ends` — one step comes to an end, and so does every run;
* `Engine.run_comes_to_an_end` — and every engine that is loaded.

Hooks, programs and other hosts give an answer here whenever they are asked.
-/

namespace Runbook

/-! ### Steps of records -/

/-- A record holds a list of records as steps to run. -/
def Value.Holds (record : Value) (records : List Value) : Prop :=
  ∃ fields key, record = .obj fields ∧ key ∈ Value.stepKeys ∧
    Fields.get? key fields = some (.arr records)

namespace Record

/-- A list that may be left out is the one that stands under its key. -/
theorem get?_items {record : Fields} {key : String} {records : List Value}
    (h : get? record key none (optional? Value.items?) = some (some records)) :
    Fields.get? key record = some (.arr records) := by
  unfold get? at h
  split at h
  · cases h
  · next v hv =>
    cases v with
    | arr items =>
      cases h
      exact hv
    | _ => cases h

/-- The list of a loop or of a list of steps is empty if it is left out. -/
theorem commands?_eq {record : Fields} {records : List Value}
    (h : commands? record = some records) :
    records = [] ∨ Fields.get? "commands" record = some (.arr records) := by
  obtain ⟨found, hfound, rfl⟩ := Option.map_eq_some_iff.1 h
  cases found with
  | none => exact .inl rfl
  | some records => exact .inr (get?_items hfound)

end Record

theorem RetryPolicy.lists_of_ofRecord? {record : Fields} {policy : RetryPolicy}
    (h : RetryPolicy.ofRecord? record = some policy) {records : List Value}
    (hmem : records ∈ policy.lists) :
    ∃ key ∈ Value.stepKeys, Fields.get? key record = some (.arr records) := by
  simp only [RetryPolicy.ofRecord?, Option.bind_eq_bind, Option.bind_eq_some_iff] at h
  obtain ⟨_, -, _, -, _, -, each, heach, final, hfinal, he⟩ := h
  cases he
  rcases List.mem_append.1 hmem with hmem | hmem
  · cases Option.mem_toList.1 hmem
    exact ⟨"onEachFailure", by decide, Record.get?_items heach⟩
  · cases Option.mem_toList.1 hmem
    exact ⟨"onFinalFailure", by decide, Record.get?_items hfinal⟩

/-- The lists of a step are empty, or stand in its record. -/
theorem Body.lists_of_ofRecord? {kind : Kind} {record : Fields} {body : Body}
    (h : Body.ofRecord? kind record = some body) {records : List Value}
    (hmem : records ∈ body.lists) :
    records = [] ∨ ∃ key ∈ Value.stepKeys, Fields.get? key record = some (.arr records) := by
  have hcommands : ∀ {list}, Record.commands? record = some list → records ∈ [list] →
      records = [] ∨ ∃ key ∈ Value.stepKeys, Fields.get? key record = some (.arr records) := by
    intro list hlist hone
    cases List.mem_singleton.1 hone
    exact (Record.commands?_eq hlist).imp_right fun hget => ⟨"commands", by decide, hget⟩
  cases kind <;>
    simp only [Body.ofRecord?, Option.bind_eq_bind, Option.bind_eq_some_iff] at h
  case foreach =>
    obtain ⟨list, hlist, _, -, _, -, _, -, _, -, _, -, he⟩ := h
    cases he
    exact hcommands hlist hmem
  case commands =>
    obtain ⟨list, hlist, he⟩ := h
    cases he
    exact hcommands hlist hmem
  case exec =>
    obtain ⟨_, -, _, -, _, -, policy, hpolicy, he⟩ := h
    cases he
    exact .inr (RetryPolicy.lists_of_ofRecord? hpolicy hmem)
  case remoteExec =>
    obtain ⟨_, -, _, -, _, -, _, -, policy, hpolicy, he⟩ := h
    cases he
    exact .inr (RetryPolicy.lists_of_ofRecord? hpolicy hmem)
  case message =>
    cases h
    cases hmem
  case sleep =>
    obtain ⟨_, -, he⟩ := h
    cases he
    cases hmem
  case assign | writeFile =>
    obtain ⟨_, -, _, -, he⟩ := h
    cases he
    cases hmem
  case password | includeFile =>
    obtain ⟨_, -, _, -, _, -, he⟩ := h
    cases he
    cases hmem
  case remoteFile =>
    obtain ⟨_, -, _, -, _, -, _, -, _, -, _, -, he⟩ := h
    cases he
    cases hmem

namespace Registry

variable {registry : Registry} {id : Nat} {record : Value} {step : Step}

/-- A step of a record is what the record describes, at its place. -/
theorem Builds.body (h : registry.Builds id record step) :
    ∃ kind fields, registry.get? (Scenario.kindOf record) = some kind ∧ record = .obj fields ∧
      Body.ofRecord? kind fields = some step.body := by
  cases h with
  | intro _ hkind hstep =>
    cases record with
    | obj fields =>
      simp only [Step.ofRecord?, Option.bind_eq_bind, Option.bind_eq_some_iff] at hstep
      obtain ⟨_, -, _, -, _, -, _, -, body, hbody, he⟩ := hstep
      cases he
      exact ⟨_, fields, hkind, rfl, hbody⟩
    | _ => cases hstep

/-- **A list that a step may run** is empty, or its record holds it. -/
theorem Builds.holds (h : registry.Builds id record step) {records : List Value}
    (hmem : records ∈ step.body.lists) : records = [] ∨ record.Holds records := by
  obtain ⟨kind, fields, -, rfl, hbody⟩ := h.body
  refine (Body.lists_of_ofRecord? hbody hmem).imp_right ?_
  rintro ⟨key, hkey, hget⟩
  exact ⟨fields, key, rfl, hkey, hget⟩

/-- Steps come of records that are nested as deep at most as a number says. -/
def Within (registry : Registry) (bound : Nat) (steps : List Step) : Prop :=
  ∀ step ∈ steps, ∃ id record, registry.Builds id record step ∧ record.nesting ≤ bound

/-- Each step of a call comes of one of its records. -/
theorem exists_record_of_steps {records : List Value} {steps : List Step}
    (h : registry.steps records = .ok steps) (hstep : step ∈ steps) :
    ∃ id, ∃ record ∈ records, registry.Builds id record step := by
  rcases registry.stepsFrom_cases 1 records with ⟨found, hfound, hlength, hall⟩ | ⟨e, hfound, -⟩
  · cases h.symm.trans hfound
    obtain ⟨i, hi, rfl⟩ := List.getElem_of_mem hstep
    exact ⟨_, _, List.getElem_mem _, hall i (hlength ▸ hi) hi⟩
  · cases h.symm.trans hfound

theorem within_of_steps {records : List Value} {steps : List Step}
    (h : registry.steps records = .ok steps) :
    registry.Within (Value.nestingItems records) steps := by
  intro step hstep
  obtain ⟨id, record, hmem, hbuilds⟩ := exists_record_of_steps h hstep
  exact ⟨id, record, hbuilds, Value.nesting_le_of_mem hmem⟩

end Registry

namespace Setup

variable {setup : Setup}

/-- **Steps that are loaded from records**, written as a document first or not, come of records
that are nested no deeper. -/
theorem LoadsFrom.within {records : List Value} {steps : List Step}
    (h : setup.LoadsFrom records steps) :
    setup.registry.Within (Value.nestingItems records) steps := by
  rcases h with h | h
  · exact Registry.within_of_steps h
  · rw [rereads] at h
    cases hscenario : Scenario.ofText (Scenario.document records) with
    | error e =>
      rw [hscenario] at h
      cases h
    | ok scenario =>
      rw [hscenario] at h
      intro step hstep
      obtain ⟨id, record, hbuilds, hbound⟩ := Registry.within_of_steps h step hstep
      exact ⟨id, record, hbuilds,
        Nat.le_trans hbound (Scenario.nesting_of_document hscenario)⟩

end Setup

/-! ### Runs that come to an end -/

/-- A run inside a step that has come to an end: what it came to, how many steps were executed in
it, and how many engines stood inside one another in it. -/
structure Settled extends Inner where
  ran : Ran
  executions : Nat
  depth : Nat

namespace Settled

/-- A runner answers runs as they have been settled. -/
def AnsweredBy (insides : List Settled) (run : Runner) : Prop :=
  ∀ inside ∈ insides, inside.toInner.by run = Setup.asAction inside.ran

/-- How many steps were executed in runs. -/
def executionsOf : List Settled → Nat
  | [] => 0
  | inside :: rest => inside.executions + executionsOf rest

/-- How many engines stood inside one another, those of the runs themselves included. -/
def depthOf : List Settled → Nat
  | [] => 0
  | inside :: rest => max (inside.depth + 1) (depthOf rest)

end Settled

/-- How many engines stand inside one another when a step is executed: one as soon as there are
lists that it may run, also when their records cannot be loaded, and those of its runs. -/
def Step.depth (step : Step) (insides : List Settled) : Nat :=
  max (min 1 step.body.lists.length) (Settled.depthOf insides)

namespace Setup

/-- A step that is found in the state `u` comes to `after`, with these runs inside it.

* It comes of a record, and the lists that it may run are empty or stand in this record.
* The runs are of these lists, and not more than `Conducts` says.
* It comes to `after` with every runner that answers the runs as they have been settled. -/
structure Comes (setup : Setup) (suffix : String) (step : Step) (u : State)
    (insides : List Settled) (after : Ran) : Prop where
  part : ∃ id record, setup.registry.Builds id record step ∧
    ∀ records ∈ step.body.lists, records = [] ∨ record.Holds records
  conducts : ∀ run, Settled.AnsweredBy insides run →
    setup.Conducts run step (starting suffix step u) (insides.map Settled.toInner)
  comes : ∀ run, Settled.AnsweredBy insides run →
    setup.runStep (setup.context run) suffix step u = after

/-- Steps that run in an engine come to an end: what they come to, how many steps are executed in
all, and how many engines stand inside one another inside this one. -/
inductive Ends (setup : Setup) : (observed : Bool) → List Step → (suffix : String) → State →
    Ran → (executions depth : Nat) → Prop
  | done {observed suffix s} : Ends setup observed [] suffix s (.ok (), s) 0 0
  | passed {observed step rest suffix s t ran executions depth} {insides : List Settled} :
      (∀ inside ∈ insides, Ends setup false inside.steps inside.suffix inside.start inside.ran
        inside.executions inside.depth) →
      setup.Comes suffix step (observe observed step s) insides (.ok (), t) →
      Ends setup observed rest suffix t ran executions depth →
      Ends setup observed (step :: rest) suffix s ran
        (Settled.executionsOf insides + 1 + executions) (max (step.depth insides) depth)
  | failed {observed step rest suffix s t e} {insides : List Settled} :
      (∀ inside ∈ insides, Ends setup false inside.steps inside.suffix inside.start inside.ran
        inside.executions inside.depth) →
      setup.Comes suffix step (observe observed step s) insides (.error e, t) →
      Ends setup observed (step :: rest) suffix s (.error e, t)
        (Settled.executionsOf insides + 1) (step.depth insides)

variable {setup : Setup}

/-- What is conducted does not depend on a runner that answers the same. -/
theorem Conducts.congr {run other : Runner} {step : Step} {start : State} {inners : List Inner}
    (h : setup.Conducts run step start inners)
    (hother : ∀ inner ∈ inners, inner.by other = inner.by run) :
    setup.Conducts other step start inners where
  loaded := h.loaded
  commands := h.commands
  loop loop hbody := by
    refine (h.loop loop hbody).imp_right ?_
    rintro ⟨steps, entries, hentries, hvisited⟩
    refine ⟨steps, entries, hentries, hvisited.steps, hvisited.inOrder, fun hall => ?_⟩
    exact hvisited.all fun inner hinner => hother inner hinner ▸ hall inner hinner
  failures := h.failures
  attempts _ _ := exists_deeds setup other

end Setup

namespace Engine

/-- The records whose steps a call adds: none if it fails. -/
def taken (engine : Engine) (call : Loading) : List Value :=
  ((call.records?.bind fun records =>
    (engine.setup.registry.steps records).map fun _ => records).toOption).getD []

/-- A loop over two entries in a list of steps. -/
def nest : List Value :=
  [.obj [("commands", .arr [.obj [("commands", .arr [.obj [("type", .str "message")]]),
    ("iterable", .arr [.null, .null]), ("type", .str "foreach")]]), ("type", .str "commands")]]

end Engine

end Runbook
