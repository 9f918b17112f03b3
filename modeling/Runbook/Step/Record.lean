import Runbook.Step.Basic
/-!
# Steps of records

* `Kind` — the kinds of steps that a registry knows;
* `Step.ofRecord?` — the step of a kind that a record describes, if the record fits;
* `RetryPolicy.ofValue?` — a retry policy on its own.

A key that is missing stands for an empty text, an empty list, zero or false; a key of the wrong
type makes the record unfit, and so does null except where a list or record may be left out. Keys
that a kind does not know are ignored.
-/

namespace Runbook

/-- A kind of steps; `includeFile` holds the files it reads from and the directory in front of
relative paths. -/
inductive Kind where
  | message
  | assign
  | sleep
  | password
  | writeFile
  | exec
  | foreach
  | commands
  | includeFile (storage : FileSystem) (base : String)
  | remoteExec
  | remoteFile
deriving DecidableEq, Repr

namespace Record

/-- One more than the largest number of seconds, bytes or characters. -/
def countBound : Nat := Nat.pow 2 64

/-- One more than the largest number of attempts. -/
def attemptBound : Nat := Nat.pow 2 32

/-- The value of a key, or a default if the key is missing. -/
def get? {α : Type} (record : Fields) (key : String) (default : α) (read : Value → Option α) :
    Option α :=
  match Fields.get? key record with
  | none => some default
  | some v => read v

/-- A natural number below a bound. -/
def natBelow? (bound : Nat) : Value → Option Nat
  | .num n => n.nat?.filter (decide <| · < bound)
  | _ => none

/-- A truth value. -/
def bool? : Value → Option Bool
  | .bool b => some b
  | _ => none

/-- A list of texts. -/
def texts? : Value → Option (List String)
  | .arr items => items.mapM Value.str?
  | _ => none

/-- A record of texts. -/
def textFields? : Value → Option (List (String × String))
  | .obj fields => fields.mapM fun (k, v) => v.str?.map fun s => (k, s)
  | _ => none

/-- Null, or what `read` accepts. -/
def optional? {α : Type} (read : Value → Option α) : Value → Option (Option α)
  | .null => some none
  | v => (read v).map some

/-- A text by its key. -/
def text? (record : Fields) (key : String) : Option String :=
  get? record key "" Value.str?

/-- A list of records by its key, which may be null. -/
def commands? (record : Fields) : Option (List Value) :=
  (get? record "commands" none (optional? Value.items?)).map (·.getD [])

end Record

open Record

/-- The policy among the keys of a record. -/
def RetryPolicy.ofRecord? (record : Fields) : Option RetryPolicy := do
  let allowFail ← get? record "allowFail" false bool?
  let attempts ← get? record "attempts" 0 (natBelow? attemptBound)
  let delay ← get? record "delay" 0 (natBelow? countBound)
  let onEachFailure ← get? record "onEachFailure" none (optional? Value.items?)
  let onFinalFailure ← get? record "onFinalFailure" none (optional? Value.items?)
  return { allowFail, attempts, delay, onEachFailure, onFinalFailure }

/-- The keys of a policy in order. -/
def RetryPolicy.keys : List String :=
  ["allowFail", "attempts", "delay", "onEachFailure", "onFinalFailure"]

/-- The policy of a record, or of the list of its values in order. -/
def RetryPolicy.ofValue? : Value → Option RetryPolicy
  | .obj record => RetryPolicy.ofRecord? record
  | .arr items =>
    if items.length ≤ RetryPolicy.keys.length then
      RetryPolicy.ofRecord? (Fields.ofList (RetryPolicy.keys.zip items))
    else none
  | _ => none

/-- What a step of a kind does according to a record. -/
def Body.ofRecord? (kind : Kind) (record : Fields) : Option Body :=
  match kind with
  | .message => some .message
  | .assign => do
    return .assign (← text? record "variable") (← get? record "value" .null some)
  | .sleep => return .sleep (← get? record "seconds" 0 (natBelow? countBound))
  | .password => do
    let target ← text? record "variable"
    let length ← get? record "length" 0 (natBelow? countBound)
    let charset ← text? record "charset"
    return .password { target, length, charset }
  | .writeFile => return .writeFile (← text? record "file") (← text? record "contents")
  | .exec => do
    let words ← get? record "cmd" [] texts?
    let target ← text? record "variable"
    let environment ← get? record "env" [] texts?
    let retry ← RetryPolicy.ofRecord? record
    return .exec { words, target, environment, retry }
  | .foreach => do
    let commands ← commands? record
    let iterable ← get? record "iterable" .null some
    let collection ← text? record "variable"
    let keyName ← text? record "keyVar"
    let valueName ← text? record "valueVar"
    let parentName ← text? record "parentVar"
    return .foreach { commands, iterable, collection, keyName, valueName, parentName }
  | .commands => return .commands (← commands? record)
  | .includeFile storage base => do
    let file ← text? record "file"
    let declared ← get? record "variables" none (optional? Value.fields?)
    let isolated ← get? record "noMergeVars" false bool?
    return .includeFile
      { file, declared := declared.getD [], isolated, storage := some storage, base }
  | .remoteExec => do
    let words ← get? record "cmd" [] texts?
    let shownAs ← text? record "cmdRedact"
    let target ← text? record "variable"
    let environment ← get? record "env" [] textFields?
    let retry ← RetryPolicy.ofRecord? record
    return .remoteExec { words, shownAs, target, environment, retry }
  | .remoteFile => do
    let file ← text? record "file"
    let contents ← text? record "contents"
    let contentsFile ← text? record "contentsFromFile"
    let contentsVariable ← text? record "contentsFromVariable"
    let permissions ← text? record "permissions"
    let timeout ← get? record "timeout" 0 (natBelow? countBound)
    return .remoteFile { file, contents, contentsFile, contentsVariable, permissions, timeout }

/-- The step of a kind that a value describes. -/
def Step.ofRecord? (kind : Kind) : Value → Option Step
  | .obj record => do
    let givenName ← text? record "stepName"
    let description ← text? record "description"
    let requires ← text? record "requires"
    let callsAfter ← text? record "callsAfter"
    let body ← Body.ofRecord? kind record
    return { givenName, description, requires, callsAfter, body }
  | _ => none

end Runbook
