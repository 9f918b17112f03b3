import Runbook.Scenario
import Runbook.Step.Record
/-!
# Registries

* `Registry` — the kinds of steps by the names that records declare, in the order of the names;
* `Registry.builtin` — the kinds that need nothing but a run;
* `Registry.step` — the step of a record by its place in a document;
* `Registry.steps` — the steps of all records, or the first error.
-/

namespace Runbook

/-- Kinds of steps by their declared names, in the order of the names. -/
abbrev Registry := List (String × Kind)

namespace Registry

/-- The kind of a name. -/
def get? (name : String) (registry : Registry) : Option Kind :=
  registry.lookup name

/-- Bind a name; a kind under the same name is replaced. -/
def register (name : String) (kind : Kind) : Registry → Registry
  | [] => [(name, kind)]
  | (n, k) :: rest =>
    if n = name then (name, kind) :: rest
    else if name < n then (name, kind) :: (n, k) :: rest
    else (n, k) :: register name kind rest

/-- Drop a name. -/
def remove (name : String) (registry : Registry) : Registry :=
  registry.filter (·.1 ≠ name)

/-- The names in order. -/
def names (registry : Registry) : List String :=
  registry.map Prod.fst

/-- The kinds that need neither other files nor a connection. -/
def builtin : Registry :=
  [("message", .message), ("variable", .assign), ("sleep", .sleep), ("password", .password),
    ("writefile", .writeFile), ("", .exec), ("exec", .exec), ("foreach", .foreach),
    ("repeat_for", .foreach), ("commands", .commands)].foldl
    (fun registry entry => registry.register entry.1 entry.2) []

/-- The name of the kind that a record declares: nothing if it declares none. -/
def declared (record : Value) : Except ScenarioError String :=
  match record with
  | .obj fields =>
    match Fields.get? "type" fields with
    | none | some .null => .ok ""
    | some (.str name) => .ok name
    | some other => .error (.unknownKind other.text)
  | _ => .ok ""

/-- The step of a record; `id` is its place in the document. -/
def step (registry : Registry) (id : Nat) (record : Value) : Except ScenarioError Step := do
  let name ← declared record
  match registry.get? name with
  | none => throw (.unknownKind name)
  | some kind =>
    match Step.ofRecord? kind record with
    | none => throw (.badRecord id name)
    | some step => return { step with origin := some { id, contents := record.text } }

/-- The steps of records, of which the first has the place `id`. -/
def stepsFrom (registry : Registry) : (id : Nat) → List Value → Except ScenarioError (List Step)
  | _, [] => .ok []
  | id, record :: rest => do
    let first ← registry.step id record
    let more ← registry.stepsFrom (id + 1) rest
    return first :: more

/-- The steps of records. -/
def steps (registry : Registry) (records : List Value) : Except ScenarioError (List Step) :=
  registry.stepsFrom 1 records

end Registry

end Runbook
