import Runbook.Proofs.Run.Loading
import Runbook.Proofs.Text.Decoding
import Runbook.Proofs.Value.ReadBack
/-!
# Documents that are written of records

Steps that run other steps hold these as records.  A loop loads the records as they are, while lists
of steps, inclusions and the lists for failures write them as a document first, which is read again.
Both come to the same, as long as the numbers in the records are integers and the document is nested
no deeper than a reader goes.

* `Document.value_text` — a document that is a record is read back;
* `Scenario.ofText_document` — the records of a document that was written of them;
* `runLoaded`, `runFailureLoaded` — lists of steps and lists for failures, by how they come by their
  steps;
* `documents_load_as_records` — loading such a document, and the steps that do so.
-/

namespace Runbook

/-! ### Documents -/

/-- The text of a record starts with a brace. -/
theorem Document.isBraced_text (fields : Fields) :
    Document.isBraced (Text.Utf8.ofString (Value.obj fields).text) = true := by
  rw [Value.text, String.append_assoc, Text.Utf8.ofString_append, Text.Utf8.ofString_eq_encode]
  rfl

/-- A document that is a record is read back. -/
theorem Document.value_text {fields : Fields}
    (h : (Value.obj fields).Integral (Value.maxDepth - 1)) :
    Document.value (Text.Utf8.ofString (Value.obj fields).text) = .ok (.obj fields) := by
  unfold Document.value
  dsimp only
  rw [if_pos (Document.isBraced_text fields), Text.Utf8.decode?_ofString, Option.bind_some,
    Value.ofChars?_text h]

namespace Scenario

/-- The list of records and the record around it are two levels more. -/
theorem integral_document {records : List Value}
    (h : ∀ record ∈ records, record.Integral (Value.maxDepth - 3)) :
    (Value.obj [("commands", .arr records)]).Integral (Value.maxDepth - 1) := by
  refine .obj (List.pairwise_singleton _ _) fun entry hentry => ?_
  rw [List.mem_singleton.1 hentry]
  exact .arr h

/-- A document that was written of records has these records. -/
theorem ofText_document {records : List Value}
    (h : ∀ record ∈ records, record.Integral (Value.maxDepth - 3)) :
    ofText (document records) = .ok { commands := records } := by
  have hblank : (document records).toList.all Text.isBlank = false := by
    rw [document, Value.text, String.append_assoc, String.toList_append]
    rfl
  unfold ofText
  rw [hblank, document, Document.value_text (integral_document h)]
  rfl

end Scenario

/-! ### Steps that write documents -/

/-- How an engine comes by steps. -/
abbrev Loader := Nested → Except ScenarioError (List Step)

/-- Load steps and run them. -/
def runLoaded (ctx : Context) (load : Loader) : Action := fun s =>
  match ctx.engine? with
  | .error e => (.error e, s)
  | .ok nested =>
    match load nested with
    | .error e => (.error ((StepError.scenario e).within "cannot load child executor"), s)
    | .ok steps => nested.run steps "" (s.log .debug (loadedNotice steps))

/-- Load steps for a failure and run them; what they fail with themselves is only logged. -/
def runFailureLoaded (ctx : Context) (label : String) (load : Loader) (s : State) : State :=
  let failed (e : StepError) (s : State) : State :=
    s.log .error ("Got an error when running " ++ label ++ ": " ++ e.message)
  match ctx.engine? with
  | .error e => failed e s
  | .ok nested =>
    match load nested with
    | .error e => failed (.scenario e) s
    | .ok steps =>
      match nested.run steps "" (s.log .debug (loadedNotice steps)) with
      | (.ok (), s) => s
      | (.error e, s) => failed e s

/-- A list of steps loads a document. -/
theorem runCommands_eq_runLoaded (ctx : Context) (records : List Value) :
    runCommands ctx records = runLoaded ctx fun nested =>
      nested.loadText (Scenario.document records) := rfl

/-- So does a list for failures. -/
theorem runFailureSteps_eq_runFailureLoaded (ctx : Context) (label : String)
    (records : List Value) :
    runFailureSteps ctx label records = runFailureLoaded ctx label fun nested =>
      nested.loadText (Scenario.document records) := rfl

section Documents

variable {records : List Value} (h : ∀ record ∈ records, record.Integral (Value.maxDepth - 3))

include h

theorem Nested.loadText_document (nested : Nested) :
    nested.loadText (Scenario.document records) = nested.load records := by
  rw [loadText, Scenario.ofText_document h]
  rfl

theorem Engine.append_document (engine : Engine) :
    engine.append (.document (Scenario.document records)) = engine.append (.records records) := by
  have hload : engine.load (.document (Scenario.document records))
      = engine.load (.records records) := by
    rw [load_eq, load_eq, Loading.records?, Scenario.ofText_document h]
    rfl
  rw [append, append, hload]

/-- A list of steps might as well load its records. -/
theorem runCommands_eq (ctx : Context) :
    runCommands ctx records = runLoaded ctx fun nested => nested.load records := by
  have hloaders : (fun nested : Nested => nested.loadText (Scenario.document records))
      = fun nested => nested.load records := funext fun nested => nested.loadText_document h
  rw [runCommands_eq_runLoaded, hloaders]

theorem runFailureSteps_eq (ctx : Context) (label : String) :
    runFailureSteps ctx label records
      = runFailureLoaded ctx label fun nested => nested.load records := by
  have hloaders : (fun nested : Nested => nested.loadText (Scenario.document records))
      = fun nested => nested.load records := funext fun nested => nested.loadText_document h
  rw [runFailureSteps_eq_runFailureLoaded, hloaders]

/-- **Documents of records load as the records do.**

* The document is read back as the records, in order.
* An engine that is given the document ends as one that is given the records: with the same error,
  or with the same steps, which have the same numbers and the same contents.
* A list of steps, a list for failures, and an inclusion of either kind do what they would do
  without the document, in every state. -/
theorem documents_load_as_records :
    Scenario.ofText (Scenario.document records) = .ok { commands := records } ∧
    (∀ engine : Engine,
      engine.append (.document (Scenario.document records)) = engine.append (.records records)) ∧
    (∀ nested : Nested, nested.loadText (Scenario.document records) = nested.load records) ∧
    (∀ ctx, runCommands ctx records = runLoaded ctx fun nested => nested.load records) ∧
    (∀ ctx label, runFailureSteps ctx label records
      = runFailureLoaded ctx label fun nested => nested.load records) ∧
    (∀ ctx inclusion s, runMerged ctx inclusion records s
      = runLoaded ctx (fun nested => nested.load records)
          { s with vars := s.vars.insertAll inclusion.declared }) ∧
    ∀ ctx stepName inclusion s, runIsolated ctx stepName inclusion records s
      = (let ran := runLoaded ctx (fun nested => nested.load records)
          { vars := inclusion.declared.insert parentKey (.obj s.vars), world := s.world }
        (ran.1, { s with world := ran.2.world }.set (variablesKey stepName)
          (.obj (ran.2.vars.erase parentKey)))) := by
  refine ⟨Scenario.ofText_document h, Engine.append_document h, Nested.loadText_document h,
    runCommands_eq h, runFailureSteps_eq h, fun ctx inclusion s => ?_,
    fun ctx stepName inclusion s => ?_⟩
  · rw [runMerged, runCommands_eq h]
  · unfold runIsolated
    rw [runCommands_eq h]

end Documents

/-- A record with characters that are written as escapes, empty containers and integers at both
ends. -/
def trickyRecord : Value :=
  .obj
    [("", .arr [.str "", .str "a\"b\\c/\n\x01\x7f😀", .null, .bool true]), ("l", .arr []),
      ("max", .num (.int 18446744073709551615)), ("min", .num (.int (-9223372036854775808))),
      ("r", .obj []), ("type", .str "message")]

theorem integral_trickyRecord : trickyRecord.Integral (Value.maxDepth - 3) := by
  refine .obj (by unfold Fields.Ordered; decide +kernel) ?_
  intro entry hentry
  simp only [List.mem_cons, List.not_mem_nil, or_false] at hentry
  rcases hentry with rfl | rfl | rfl | rfl | rfl | rfl
  · refine .arr fun v hv => ?_
    simp only [List.mem_cons, List.not_mem_nil, or_false] at hv
    rcases hv with rfl | rfl | rfl | rfl
    · exact .str _
    · exact .str _
    · exact .null
    · exact .bool _
  · exact .arr (List.forall_mem_nil _)
  · exact .int (by decide) (by decide)
  · exact .int (by decide) (by decide)
  · exact .obj .nil (List.forall_mem_nil _)
  · exact .str _

/-- A document of that record is read back. -/
theorem documents_load_as_records_of_tricky :
    Scenario.ofText (Scenario.document [trickyRecord, .null])
        = .ok { commands := [trickyRecord, .null] } ∧
      (({} : Engine).append (.document (Scenario.document [trickyRecord, .null]))).1
        = .error (.badRecord 2 "") := by
  have hintegral : ∀ record ∈ [trickyRecord, .null], record.Integral (Value.maxDepth - 3) := by
    intro record hrecord
    rcases List.mem_cons.1 hrecord with rfl | hlast
    · exact integral_trickyRecord
    · rw [List.mem_singleton.1 hlast]
      exact .null
  obtain ⟨hread, happend, -⟩ := documents_load_as_records hintegral
  refine ⟨hread, ?_⟩
  rw [happend]
  decide +kernel

end Runbook
