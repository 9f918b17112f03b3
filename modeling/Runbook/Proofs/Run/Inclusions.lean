import Runbook.Proofs.Run.Inner
/-!
# Inclusions with variables of their own

The records of another document may be run on variables of their own.  Around the step that includes
them one variable changes then: the one that keeps what they left.  This file says so for any
document, any declared variables and any outcome of the run.

* `Include.Unread`, `Include.Reads` — a document cannot be read, or gives records;
* `Include.load_cases` — there is no third case;
* `Include.Prepared` — the variables on which the records run;
* `Include.Keeps` — the variables around the step, and the one among them that is set;
* `Includes`, `include_keeps_around` — what such an inclusion does.
-/

namespace Runbook

namespace Include

/-! ### The document of an inclusion -/

/-- The path of the document that is read when the variables are these. -/
def path (inclusion : Include) (vars : Namespace) : String :=
  inclusion.resolve (Setup.included inclusion vars)

/-- There are no records: the name comes out empty, the step was given no storage, the file cannot
be read, or what is in it is no document. -/
inductive Unread (inclusion : Include) (s : State) : Prop
  | nameless :
      Setup.included inclusion s.vars = "" → Unread inclusion s
  | unstored :
      inclusion.storage = none → Unread inclusion s
  | unreadable {storage e} :
      inclusion.storage = some storage →
      storage.read s.world.files (inclusion.path s.vars) = .error e → Unread inclusion s
  | unparsed {storage bytes e} :
      inclusion.storage = some storage →
      storage.read s.world.files (inclusion.path s.vars) = .ok bytes →
      Scenario.ofText (Text.Utf8.toStringLossy bytes) = .error e → Unread inclusion s

/-- The records of the file that is read. -/
structure Reads (inclusion : Include) (s : State) (records : List Value) : Prop where
  named : Setup.included inclusion s.vars ≠ ""
  read : ∃ storage bytes, inclusion.storage = some storage ∧
    storage.read s.world.files (inclusion.path s.vars) = .ok bytes ∧
    Scenario.ofText (Text.Utf8.toStringLossy bytes) = .ok ⟨records⟩

/-- Reading leaves the files alone. -/
theorem files_noticed (inclusion : Include) (s : State) :
    (Setup.noticed inclusion s).world.files = s.world.files := by
  unfold Setup.noticed
  split
  · exact World.files_log _ _ _
  · rfl

/-- A file that is named gives an error or records. -/
theorem load_cases {inclusion : Include} {s : State}
    (hnamed : Setup.included inclusion s.vars ≠ "") (stepName : String) :
    (∃ e, inclusion.load stepName s.world.files (Setup.included inclusion s.vars) = .error e ∧
      inclusion.Unread s) ∨
    ∃ records, inclusion.load stepName s.world.files (Setup.included inclusion s.vars)
      = .ok records ∧ inclusion.Reads s records := by
  unfold load
  dsimp only
  rw [← path]
  cases hstorage : inclusion.storage with
  | none => exact .inl ⟨_, rfl, .unstored hstorage⟩
  | some storage =>
    dsimp only
    rcases hread : storage.read s.world.files (inclusion.path s.vars) with e | bytes
    · exact .inl ⟨_, rfl, .unreadable hstorage hread⟩
    · dsimp only
      rcases hparse : Scenario.ofText (Text.Utf8.toStringLossy bytes) with e | scenario
      · exact .inl ⟨_, rfl, .unparsed hstorage hread hparse⟩
      · exact .inr ⟨scenario.commands, rfl, hnamed, storage, bytes, hstorage, hread, hparse⟩

/-! ### The variables of an inclusion -/

/-- Variables on which included records run: the declared ones, and those around the step under the
name of the parent, even when a variable of that name is declared. -/
structure Prepared (inclusion : Include) (outer vars : Namespace) : Prop where
  parent : Fields.get? parentKey vars = some (.obj outer)
  declared : ∀ name, name ≠ parentKey →
    Fields.get? name vars = Fields.get? name inclusion.declared

theorem prepared_insert (inclusion : Include) (outer : Namespace) :
    inclusion.Prepared outer (inclusion.declared.insert parentKey (.obj outer)) where
  parent := Fields.get?_insert_self _ _ _
  declared _ hname := Fields.get?_insert_of_ne _ _ hname

/-- The variables `after` are those around the step, but for one that is set to all variables that
the records left, without the parent. -/
structure Keeps (stepName : String) (outer left after : Namespace) : Prop where
  set : ∃ kept, Fields.get? (variablesKey stepName) after = some (.obj kept) ∧
    Fields.get? parentKey kept = none ∧
    ∀ name, name ≠ parentKey → Fields.get? name kept = Fields.get? name left
  others : ∀ name, name ≠ variablesKey stepName →
    Fields.get? name after = Fields.get? name outer
  exact : after = outer.insert (variablesKey stepName) (.obj (left.erase parentKey))

theorem keeps_insert (stepName : String) (outer left : Namespace) :
    Keeps stepName outer left
      (outer.insert (variablesKey stepName) (.obj (left.erase parentKey))) where
  set := ⟨left.erase parentKey, Fields.get?_insert_self _ _ _, Fields.get?_erase_self _ _,
    fun _ hname => Fields.get?_erase_of_ne _ hname⟩
  others _ hname := Fields.get?_insert_of_ne _ _ hname
  exact := rfl

end Include

/-! ### Inclusions -/

/-- What an inclusion with variables of its own does in the state `s`, and what it comes to: there
are no records, and no variable changes; or the records run inside, from `start` to `left`, and the
step ends as this run does. -/
inductive Includes (engine : Option Nested) (stepName : String) (inclusion : Include) (s : State) :
    Except StepError Unit × State → Prop
  | unread {e t} :
      inclusion.Unread s →
      t.vars = s.vars →
      Includes engine stepName inclusion s (.error e, t)
  | ran {records start result left t} :
      inclusion.Reads s records →
      inclusion.Prepared s.vars start.vars →
      start.world = (Setup.noticed inclusion s).world →
      RunsInside engine records start (result, left) →
      Include.Keeps stepName s.vars left.vars t.vars →
      t.world = left.world →
      Includes engine stepName inclusion s (result, t)

/-- Records on variables of their own. -/
theorem includes_runIsolated (ctx : Context) (stepName : String) {inclusion : Include} {s : State}
    {records : List Value} (hreads : inclusion.Reads s records) :
    Includes ctx.nested stepName inclusion s
      (runIsolated ctx stepName inclusion records (Setup.noticed inclusion s)) := by
  rw [Setup.runIsolated_eq, Setup.vars_noticed]
  generalize hstart : State.mk (inclusion.declared.insert parentKey (.obj s.vars))
    (Setup.noticed inclusion s).world = start
  have hprepared : inclusion.Prepared s.vars start.vars := by
    rw [← hstart]
    exact inclusion.prepared_insert s.vars
  have hworld : start.world = (Setup.noticed inclusion s).world := by rw [← hstart]
  exact .ran hreads hprepared hworld (runsInside_runCommands ctx records start)
    (Include.keeps_insert stepName s.vars _) rfl

/-- An inclusion with variables of its own, whatever becomes of it. -/
theorem includes_includeAction (ctx : Context) (stepName : String) {inclusion : Include}
    (hisolated : inclusion.isolated = true) (s : State) :
    Includes ctx.nested stepName inclusion s (includeAction ctx stepName inclusion s) := by
  by_cases hnamed : Setup.included inclusion s.vars = ""
  · rw [Setup.includeAction_of_nameless hnamed]
    exact .unread (.nameless hnamed) rfl
  · rw [Setup.includeAction_of_ne hnamed, Include.files_noticed]
    rcases Include.load_cases hnamed stepName with ⟨e, hload, hunread⟩ | ⟨records, hload, hreads⟩
    · rw [hload]
      exact .unread hunread (Setup.vars_noticed inclusion s)
    · rw [hload]
      dsimp only
      rw [if_pos hisolated]
      exact includes_runIsolated ctx stepName hreads

/-- **What an inclusion with variables of its own does.**  When its document gives no records, it
fails and leaves all variables as they were.  Otherwise its records run on the declared variables
and the parent, whatever is declared; the step ends as this run does; and around the step one
variable is set, to what the run has left without the parent.  In an engine, that run is one of an
engine of the same setup. -/
theorem include_keeps_around (ctx : Context) (step : Step) (inclusion : Include)
    (hbody : step.body = .includeFile inclusion) (hisolated : inclusion.isolated = true)
    (s : State) :
    Includes ctx.nested step.name inclusion s (step.perform ctx s) ∧
      ∀ (setup : Setup) limit, ctx = setup.lends limit →
        ctx.nested = some (setup.nested limit) := by
  have hperform : step.perform ctx s = includeAction ctx step.name inclusion s := by
    rw [Step.perform, hbody]
  rw [hperform]
  refine ⟨includes_includeAction ctx step.name hisolated s, ?_⟩
  rintro setup limit rfl
  exact setup.nested_lends limit

/-- An inclusion that declares a variable of the parent's name. -/
def orphaned : Include :=
  { file := "/f", isolated := true, storage := some .memory
    declared := [("_parent", .bool true), ("n", .bool false)] }

/-- A state with the file of that inclusion, which is empty. -/
def around : State :=
  { vars := [("n", .bool true)], world := { files := { memory := { files := [("/f", [])] } } } }

/-- What is declared does not reach the variables around, but for the one that is set. -/
theorem include_keeps_around_of_orphaned :
    ({ givenName := "in", body := .includeFile orphaned } : Step).body = .includeFile orphaned ∧
    orphaned.isolated = true ∧
    ∃ result after, Step.perform { givenName := "in", body := .includeFile orphaned }
        (({} : Setup).lends 1) around = (result, after) ∧
      Fields.get? "n" after.vars = some (.bool true) ∧
      ∃ kept, Fields.get? "in_variables" after.vars = some (.obj kept) ∧
        Fields.get? "_parent" kept = none := by
  refine ⟨rfl, rfl, ?_⟩
  have hincludes := (include_keeps_around (({} : Setup).lends 1)
    { givenName := "in", body := .includeFile orphaned } orphaned rfl rfl around).1
  rcases hperform : Step.perform { givenName := "in", body := .includeFile orphaned }
    (({} : Setup).lends 1) around with ⟨result, after⟩
  rw [hperform] at hincludes
  refine ⟨result, after, rfl, ?_⟩
  cases hincludes with
  | unread hunread _ =>
    cases hunread with
    | nameless h => exact absurd h (by decide)
    | unstored h => cases h
    | unreadable hstorage hread =>
      cases hstorage
      cases hread
    | unparsed hstorage hread hparse =>
      cases hstorage
      cases hread
      cases hparse
  | ran _ _ _ _ hkeeps _ =>
    obtain ⟨kept, hset, hparent, -⟩ := hkeeps.set
    exact ⟨hkeeps.others "n" (by decide), kept, hset, hparent⟩

end Runbook
