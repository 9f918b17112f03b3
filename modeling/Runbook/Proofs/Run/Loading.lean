import Runbook.Proofs.Run.Steps
/-!
# Loading steps

An engine is given its steps by calls that load documents or lists of records, one call after the
other.  This file says what each call does to the engine, and what the steps of several calls are
when they run.

* `Registry.Builds`, `Registry.Refuses` — the step that comes of a record, and why none does;
* `Registry.BuildsAll`, `Registry.RefusesFirst` — the same for all records of a call, where the
  first bad one decides;
* `Engine.Appends` — the ways in which a call can end;
* `Engine.executeIn_append` — a run over two lists of steps, at any depth of engines;
* `Engine.calls_append_steps` — what every call of a sequence does, what the sequence leaves, and
  that running the steps of two sequences is running those of the first and then those of the
  second.
-/

namespace Runbook

/-! ### One record -/

namespace Registry

/-- The type of a record is missing, null or a text. -/
def Typed (record : Value) : Prop :=
  ∀ fields other, record = .obj fields → Fields.get? "type" fields = some other →
    other = .null ∨ ∃ name, other = .str name

/-- The step that comes of a record at a place: the kind that the record declares, which is the one
that `Scenario.kinds` lists for it, is registered, and the record fits it. -/
inductive Builds (registry : Registry) (id : Nat) (record : Value) : Step → Prop
  | intro {kind step} :
      Typed record →
      registry.get? (Scenario.kindOf record) = some kind →
      Step.ofRecord? kind record = some step →
      Builds registry id record { step with origin := some { id, contents := record.text } }

/-- Why no step comes of a record at a place: its type is no text, or names no kind, or the record
does not fit that kind. -/
inductive Refuses (registry : Registry) (id : Nat) (record : Value) : ScenarioError → Prop
  | type {fields other} :
      record = .obj fields →
      Fields.get? "type" fields = some other →
      other ≠ .null →
      (∀ name, other ≠ .str name) →
      Refuses registry id record (.unknownKind other.text)
  | kind :
      Typed record →
      registry.get? (Scenario.kindOf record) = none →
      Refuses registry id record (.unknownKind (Scenario.kindOf record))
  | fields {kind} :
      Typed record →
      registry.get? (Scenario.kindOf record) = some kind →
      Step.ofRecord? kind record = none →
      Refuses registry id record (.badRecord id (Scenario.kindOf record))

/-- The kind that is looked up for a record is the one that it declares. -/
theorem declared_of_typed {record : Value} (h : Typed record) :
    declared record = .ok (Scenario.kindOf record) := by
  cases record with
  | obj fields =>
    rw [declared, Scenario.kindOf]
    cases htype : Fields.get? "type" fields with
    | none => rfl
    | some other =>
      rcases h fields other rfl htype with rfl | ⟨name, rfl⟩ <;> rfl
  | _ => rfl

theorem declared_of_mistyped {fields : Fields} {other : Value}
    (htype : Fields.get? "type" fields = some other) (hnull : other ≠ .null)
    (htext : ∀ name, other ≠ .str name) :
    declared (.obj fields) = .error (.unknownKind other.text) := by
  rw [declared, htype]
  cases other with
  | null => exact absurd rfl hnull
  | str name => exact absurd rfl (htext name)
  | _ => rfl

/-- A type that is no text has no other way to be wrong. -/
theorem typed_or_mistyped (record : Value) :
    Typed record ∨ ∃ fields other, record = .obj fields ∧ Fields.get? "type" fields = some other ∧
      other ≠ .null ∧ ∀ name, other ≠ .str name := by
  by_cases h : ∃ fields other, record = .obj fields ∧ Fields.get? "type" fields = some other ∧
      other ≠ .null ∧ ∀ name, other ≠ .str name
  · exact .inr h
  · refine .inl fun fields other hrecord htype => Classical.byContradiction fun hnone => ?_
    exact h ⟨fields, other, hrecord, htype, fun hnull => hnone (.inl hnull),
      fun name hname => hnone (.inr ⟨name, hname⟩)⟩

theorem step_of_declared {record : Value} {name : String} (h : declared record = .ok name)
    (registry : Registry) (id : Nat) :
    registry.step id record
      = (registry.get? name).elim (.error (.unknownKind name)) fun kind =>
          (Step.ofRecord? kind record).elim (.error (.badRecord id name)) fun step =>
            .ok { step with origin := some { id, contents := record.text } } := by
  rw [step, h]
  show Except.bind (.ok name) _ = _
  rw [Except.bind]
  cases registry.get? name with
  | none => rfl
  | some kind =>
    dsimp only [Option.elim]
    cases Step.ofRecord? kind record <;> rfl

/-- **One record.**  A step comes of it, or a reason why none does. -/
theorem step_cases (registry : Registry) (id : Nat) (record : Value) :
    (∃ step, registry.step id record = .ok step ∧ registry.Builds id record step) ∨
      ∃ e, registry.step id record = .error e ∧ registry.Refuses id record e := by
  rcases typed_or_mistyped record with htyped | ⟨fields, other, rfl, htype, hnull, htext⟩
  · rw [step_of_declared (declared_of_typed htyped)]
    cases hkind : registry.get? (Scenario.kindOf record) with
    | none => exact .inr ⟨_, rfl, .kind htyped hkind⟩
    | some kind =>
      rw [Option.elim_some]
      cases hfits : Step.ofRecord? kind record with
      | none => exact .inr ⟨_, rfl, .fields htyped hkind hfits⟩
      | some step => exact .inl ⟨_, rfl, .intro htyped hkind hfits⟩
  · refine .inr ⟨_, ?_, .type rfl htype hnull htext⟩
    rw [step, declared_of_mistyped htype hnull htext]
    rfl

/-! ### All records of a call -/

/-- The steps that come of records, of which the first has the place `id`: one for each record, in
order. -/
def BuildsAll (registry : Registry) (id : Nat) (records : List Value) (steps : List Step) : Prop :=
  steps.length = records.length ∧
    ∀ (i : Nat) (hrecord : i < records.length) (hstep : i < steps.length),
      registry.Builds (id + i) records[i] steps[i]

/-- Why no steps come of records: of all in front of some record steps would come, but none of that
one. -/
def RefusesFirst (registry : Registry) (id : Nat) (records : List Value) (e : ScenarioError) :
    Prop :=
  ∃ before record after steps, records = before ++ record :: after ∧
    registry.BuildsAll id before steps ∧ registry.Refuses (id + before.length) record e

theorem buildsAll_nil (registry : Registry) (id : Nat) : registry.BuildsAll id [] [] :=
  ⟨rfl, fun i h => absurd h (Nat.not_lt_zero i)⟩

theorem BuildsAll.cons {registry : Registry} {id : Nat} {record : Value} {records : List Value}
    {step : Step} {steps : List Step} (hfirst : registry.Builds id record step)
    (hrest : registry.BuildsAll (id + 1) records steps) :
    registry.BuildsAll id (record :: records) (step :: steps) := by
  refine ⟨congrArg (· + 1) hrest.1, fun i hrecord hstep => ?_⟩
  cases i with
  | zero => exact hfirst
  | succ i =>
    have hmore := hrest.2 i (Nat.lt_of_succ_lt_succ hrecord) (Nat.lt_of_succ_lt_succ hstep)
    rwa [Nat.add_right_comm] at hmore

/-- **All records of a call**: a step comes of each, or the first bad one decides. -/
theorem stepsFrom_cases (registry : Registry) (id : Nat) (records : List Value) :
    (∃ steps, registry.stepsFrom id records = .ok steps ∧ registry.BuildsAll id records steps) ∨
      ∃ e, registry.stepsFrom id records = .error e ∧ registry.RefusesFirst id records e := by
  induction records generalizing id with
  | nil => exact .inl ⟨[], rfl, registry.buildsAll_nil id⟩
  | cons record records ih =>
    rw [stepsFrom]
    rcases registry.step_cases id record with ⟨step, hstep, hbuilds⟩ | ⟨e, hstep, hrefuses⟩
    · rw [hstep]
      rcases ih (id + 1) with ⟨steps, hsteps, hall⟩ | ⟨e, hsteps, hfirst⟩
      · refine .inl ⟨step :: steps, ?_, hall.cons hbuilds⟩
        rw [hsteps]
        rfl
      · obtain ⟨before, bad, after, steps, rfl, hall, hrefuses⟩ := hfirst
        refine .inr ⟨e, ?_, record :: before, bad, after, step :: steps, rfl,
          hall.cons hbuilds, ?_⟩
        · rw [hsteps]
          rfl
        · rwa [List.length_cons, ← Nat.add_assoc, Nat.add_right_comm]
    · rw [hstep]
      exact .inr ⟨e, rfl, [], record, records, [], rfl, registry.buildsAll_nil id, hrefuses⟩

end Registry

/-! ### Calls -/

namespace Engine

/-- The steps that a call adds. -/
def added (engine : Engine) (call : Loading) : List Step :=
  ((call.records?.bind engine.setup.registry.steps).toOption).getD []

/-- The ways in which a call can end, with the engine behind it: its document does not parse; or a
record of it is the first bad one; or all its records are good, which adds one step for each. -/
inductive Appends (engine : Engine) (call : Loading) : Except ScenarioError Unit × Engine → Prop
  | unread {e} :
      call.records? = .error e →
      Appends engine call (.error e, engine)
  | refused {records e} :
      call.records? = .ok records →
      engine.setup.registry.RefusesFirst 1 records e →
      Appends engine call (.error e, engine)
  | grown {records steps} :
      call.records? = .ok records →
      engine.setup.registry.BuildsAll 1 records steps →
      Appends engine call (.ok (), { engine with steps := engine.steps ++ steps })

/-- A call loads the steps of its records. -/
theorem load_eq (call : Loading) (engine : Engine) :
    engine.load call
      = (call.records?.bind engine.setup.registry.steps).map fun steps =>
          { engine with steps := engine.steps ++ steps } := by
  cases call with
  | document text =>
    show engine.appendText text = _
    rw [appendText, Loading.records?]
    cases Scenario.ofText text <;> rfl
  | records commands => rfl

theorem append_of_ok {call : Loading} {engine : Engine} {steps : List Step}
    (h : call.records?.bind engine.setup.registry.steps = .ok steps) :
    engine.append call = (.ok (), { engine with steps := engine.steps ++ steps }) := by
  rw [append, load_eq, h]
  rfl

theorem append_of_error {call : Loading} {engine : Engine} {e : ScenarioError}
    (h : call.records?.bind engine.setup.registry.steps = .error e) :
    engine.append call = (.error e, engine) := by
  rw [append, load_eq, h]
  rfl

/-- A call changes nothing but the steps, to which it adds its own. -/
theorem append_snd (call : Loading) (engine : Engine) :
    (engine.append call).2 = { engine with steps := engine.steps ++ engine.added call } := by
  rcases h : call.records?.bind engine.setup.registry.steps with e | steps
  · rw [append_of_error h, added, h]
    show engine = { engine with steps := engine.steps ++ [] }
    rw [List.append_nil]
  · rw [append_of_ok h, added, h]
    rfl

/-- **One call.** -/
theorem appends_append (call : Loading) (engine : Engine) :
    engine.Appends call (engine.append call) := by
  rcases hrecords : call.records? with e | records
  · have hload : call.records?.bind engine.setup.registry.steps = .error e := by
      rw [hrecords]
      rfl
    rw [append_of_error hload]
    exact .unread hrecords
  · have hload : call.records?.bind engine.setup.registry.steps
        = engine.setup.registry.stepsFrom 1 records := by
      rw [hrecords]
      rfl
    rcases engine.setup.registry.stepsFrom_cases 1 records with
      ⟨steps, hsteps, hall⟩ | ⟨e, hsteps, hfirst⟩
    · rw [append_of_ok (hload.trans hsteps)]
      exact .grown hrecords hall
    · rw [append_of_error (hload.trans hsteps)]
      exact .refused hrecords hfirst

/-- What calls leave of an engine: its steps, and behind them those that the calls add. -/
theorem appendAll_eq (calls : List Loading) (engine : Engine) :
    engine.appendAll calls
      = { engine with steps := engine.steps ++ calls.flatMap engine.added } := by
  induction calls generalizing engine with
  | nil =>
    show engine = { engine with steps := engine.steps ++ [] }
    rw [List.append_nil]
  | cons call calls ih =>
    show (engine.append call).2.appendAll calls = _
    rw [ih, append_snd, List.flatMap_cons, ← List.append_assoc]
    rfl

/-- The engine without its steps. -/
def bare (engine : Engine) : Engine :=
  { engine with steps := [] }

end Engine

/-- A run that goes on behind a success. -/
def Ran.andThen (ran : Ran) (next : State → Ran) : Ran :=
  match ran with
  | (.ok (), s) => next s
  | (.error f, s) => (.error f, s)

namespace Engine

/-- Running two lists of steps in one engine is running them in two. -/
theorem executeIn_append (engine : Engine) (limit : Nat) (first second : List Step) (s : State) :
    ({ engine with steps := first ++ second } : Engine).executeIn limit s
      = (({ engine with steps := first } : Engine).executeIn limit s).andThen
          (({ engine with steps := second } : Engine).executeIn limit) := by
  have hrun : ∀ (steps : List Step) (s : State),
      ({ engine with steps } : Engine).executeIn limit s
        = engine.setup.runSteps (engine.setup.lends limit) engine.suffix engine.observed steps s :=
    fun steps s => engine.setup.run_eq_runSteps limit engine.observed steps engine.suffix s
  rw [hrun, hrun, Setup.runSteps_append]
  generalize engine.setup.runSteps _ _ _ first s = ran
  obtain ⟨e | _, t⟩ := ran
  · rfl
  · exact (hrun second t).symm

/-- **Loading in several calls.**

* Every call, on the engine that those in front of it have left, ends in one of the ways of
  `Appends`: when it fails the engine stays as it was, and the error is that of the document or of
  the first bad record; when it succeeds there is one step more for each record, in order and
  numbered from one, of the kind that the record declares.
* The steps in the end are those that the calls have added, one call behind the other.
* The steps of two sequences of calls run as those of the first do and, behind a success, as those
  of the second, each in an engine that is set up the same way, however many engines may stand
  inside it. -/
theorem calls_append_steps (engine : Engine) :
    (∀ calls call,
      (engine.appendAll calls).Appends call ((engine.appendAll calls).append call)) ∧
    (∀ calls, engine.appendAll calls
      = { engine with steps := engine.steps ++ calls.flatMap engine.added }) ∧
    ∀ first second limit s,
      (engine.bare.appendAll (first ++ second)).executeIn limit s
        = ((engine.bare.appendAll first).executeIn limit s).andThen
            ((engine.bare.appendAll second).executeIn limit) := by
  refine ⟨fun calls call => appends_append call _, fun calls => appendAll_eq calls engine, ?_⟩
  intro first second limit s
  rw [appendAll_eq, appendAll_eq first, appendAll_eq second, List.flatMap_append]
  exact engine.bare.executeIn_append limit (first.flatMap engine.bare.added)
    (second.flatMap engine.bare.added) s

/-- A call in the middle fails and adds nothing; the numbers start again with each call. -/
example :
    (({} : Engine).appendAll
      [.document "\x7b\"commands\":[\x7b\"type\":\"message\"\x7d]\x7d",
        .records [.obj [("type", .str "message")], .obj [("type", .str "missing")]],
        .records [.obj [("type", .str "message")], .obj []]]).steps.map
      (fun step => (step.kind, step.origin.map Origin.id))
      = [("message", some 1), ("message", some 1), ("exec", some 2)] := by
  decide +kernel

end Engine

end Runbook
