import Runbook.Run.Local
/-!
# Steps that run other steps

* `runCommands` — loads records and runs their steps on the same state;
* `Foreach.collection?`, `entries?` — the collection of a loop, and its keys and values;
* `runEntries`, `foreachAction` — a run of the loop's steps for each entry, each on variables of
  its own;
* `Include.load`, `includeAction` — the steps of another document, on the same variables or on
  variables of their own.

A loop never changes the variables around it; an inclusion with variables of its own changes one.
-/

namespace Runbook

/-! ### Lists of steps -/

/-- Load records as a document and run their steps. -/
def runCommands (ctx : Context) (commands : List Value) : Action := fun s =>
  match ctx.engine? with
  | .error e => (.error e, s)
  | .ok nested =>
    match nested.loadText (Scenario.document commands) with
    | .error e => (.error ((StepError.scenario e).within "cannot load child executor"), s)
    | .ok steps => nested.run steps "" (s.log .debug (loadedNotice steps))

/-! ### Loops -/

/-- The name of a type of values. -/
def typeName : Value → String
  | .null => "null"
  | .bool _ => "bool"
  | .num _ => "number"
  | .str _ => "string"
  | .arr _ => "array"
  | .obj _ => "map"

/-- A value that is not null. -/
def present? : Option Value → Option Value
  | some .null => none
  | v => v

/-- The collection of a loop: the one it holds, or that of a variable. -/
def Foreach.collection? (loop : Foreach) (vars : Namespace) : Except StepError Value :=
  match present? (some loop.iterable), present? (Fields.get? loop.collection vars) with
  | some v, _ => .ok v
  | none, some v => .ok v
  | none, none =>
    if loop.collection = "" then .error (.definition "either iterable or variable must be set")
    else .error (.definition ("variable " ++ Text.quoted loop.collection ++ " does not exist"))

/-- The items of a list with their places, of which the first is `index`. -/
def numbered : (index : Nat) → List Value → List (Value × Value)
  | _, [] => []
  | index, v :: rest => (.nat index, v) :: numbered (index + 1) rest

/-- The keys and values of a collection. -/
def entries? : Value → Except StepError (List (Value × Value))
  | .arr items => .ok (numbered 0 items)
  | .obj fields => .ok (fields.map fun (k, v) => (.str k, v))
  | other =>
    .error (.definition ("foreach: invalid variable type " ++ Text.quoted (typeName other)
      ++ " (expected slice or map)"))

/-- What a key adds to the names of the steps of a loop. -/
def keySuffix : Value → String
  | .str s => "_" ++ s
  | v => "_" ++ v.text

/-- A name, or a default for an empty one. -/
def orDefault (name default : String) : String :=
  if name = "" then default else name

/-- The variables of one entry: those around the loop, the key and the value. -/
def Foreach.iteration (loop : Foreach) (outer : Namespace) (entry : Value × Value) : Namespace :=
  Fields.ofList [(orDefault loop.parentName "parent", .obj outer),
    (orDefault loop.keyName "key", entry.1), (orDefault loop.valueName "value", entry.2)]

/-- Run the steps of a loop for entries up to the first failure. -/
def runEntries (nested : Nested) (loop : Foreach) (steps : List Step) :
    List (Value × Value) → Action
  | [], s => (.ok (), s)
  | entry :: rest, s =>
    let inner : State := { vars := loop.iteration s.vars entry, world := s.world }
    match nested.run steps (keySuffix entry.1) inner with
    | (.ok (), t) => runEntries nested loop steps rest { s with world := t.world }
    | (.error e, t) => (.error e, { s with world := t.world })

/-- Run a loop. -/
def foreachAction (ctx : Context) (loop : Foreach) : Action := fun s =>
  match ctx.engine? with
  | .error e => (.error e, s)
  | .ok nested =>
    match (loop.collection? s.vars).bind entries? with
    | .error e => (.error e, s)
    | .ok entries =>
      match nested.load loop.commands with
      | .error e => (.error (.scenario e), s)
      | .ok steps =>
        runEntries nested loop steps entries (s.log .debug (loadedNotice steps))

/-! ### Inclusions -/

namespace Include

/-- The path of a file: relative to the base unless it starts with a slash. -/
def resolve (inclusion : Include) (file : String) : String :=
  if inclusion.base = "" ∨ file.toList.head? = some '/' then file
  else
    String.ofList ((inclusion.base.toList.reverse.dropWhile (· == '/')).reverse) ++ "/" ++ file

/-- What is logged when a file is read under a directory. -/
def readingNotice (inclusion : Include) (path : String) : Option String :=
  match inclusion.storage with
  | some (.directory root) => some ("Reading " ++ FileSystem.resolve root path)
  | _ => none

/-- The error of an inclusion that has no storage. -/
def storageNeeded : StepError :=
  .definition "include: no storage configured"

/-- The error of an inclusion whose file name comes out empty: a name that was given is filled in
only when there is a storage. -/
def nameless (inclusion : Include) (stepName : String) : StepError :=
  if inclusion.file ≠ "" ∧ inclusion.storage.isNone then storageNeeded else fileNeeded stepName

/-- The records of the document that a step includes. -/
def load (inclusion : Include) (stepName : String) (files : Files) (file : String) :
    Except StepError (List Value) :=
  let path := inclusion.resolve file
  match inclusion.storage with
  | none => .error storageNeeded
  | some storage =>
    match storage.read files path with
    | .error e =>
      .error ((StepError.io e).within ("unable to load included script " ++ Text.quoted path
        ++ " in " ++ Text.quoted stepName))
    | .ok bytes =>
      match Scenario.ofText (Text.Utf8.toStringLossy bytes) with
      | .error e =>
        .error ((StepError.scenario e).within ("failed to parse input " ++ Text.quoted path
          ++ " in " ++ Text.quoted stepName))
      | .ok scenario => .ok scenario.commands

end Include

/-- The variable that keeps the variables of an inclusion. -/
def variablesKey (stepName : String) : String :=
  stepName ++ "_variables"

/-- The variable under which an inclusion with variables of its own finds those around it. -/
def parentKey : String := "_parent"

/-- Run included records on the same variables, after the declared ones are set. -/
def runMerged (ctx : Context) (inclusion : Include) (commands : List Value) : Action := fun s =>
  runCommands ctx commands { s with vars := s.vars.insertAll inclusion.declared }

/-- Run included records on variables of their own, which are kept in one variable. -/
def runIsolated (ctx : Context) (stepName : String) (inclusion : Include)
    (commands : List Value) : Action := fun s =>
  let inner : State :=
    { vars := inclusion.declared.insert parentKey (.obj s.vars), world := s.world }
  let (result, t) := runCommands ctx commands inner
  (result, { s with world := t.world }.set (variablesKey stepName)
    (.obj (t.vars.erase parentKey)))

/-- Include a document. -/
def includeAction (ctx : Context) (stepName : String) (inclusion : Include) : Action := fun s =>
  let file := if inclusion.file = "" then "" else interpolate s.vars inclusion.file
  if file = "" then (.error (inclusion.nameless stepName), s)
  else
    let s := match inclusion.readingNotice (inclusion.resolve file) with
      | some notice => s.log .debug notice
      | none => s
    match inclusion.load stepName s.world.files file with
    | .error e => (.error e, s)
    | .ok commands =>
      if inclusion.isolated then runIsolated ctx stepName inclusion commands s
      else runMerged ctx inclusion commands s

end Runbook
