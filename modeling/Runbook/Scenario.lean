import Runbook.Error
import Runbook.Storage.Disk
import Runbook.Text.Utf8
import Runbook.Value.Reader
import Runbook.Value.Text
import Runbook.Yaml.Reader
/-!
# Scenarios

A scenario is a list of step records that no one has looked into yet:

* `Document.value` — the value of a document: one whose first character that is not blank is a
  brace is read by the strict grammar of `Value.ofText?`, any other one as YAML;
* `Scenario.ofText` — the scenario of a document; a blank one has no steps;
* `Scenario.kinds` — the kinds that the records declare;
* `Scenario.document` — a list of records written as a document again;
* `Scenario.load`, `Namespace.load` — a scenario and a set of variables from a file.
-/

namespace Runbook

namespace Document

/-- Whether a document starts with a brace. -/
def isBraced (bytes : List UInt8) : Bool :=
  match bytes.find? fun b => !(b == 0x20 || b == 0x09 || b == 0x0A || b == 0x0C || b == 0x0D) with
  | some b => b == 0x7B
  | none => false

/-- The value of a document. -/
def value (bytes : List UInt8) : Except ScenarioError Value :=
  let chars := Text.Utf8.decode? bytes
  if isBraced bytes then
    match chars.bind Value.ofChars? with
    | some v => .ok v
    | none => .error .json
  else
    match chars.bind Value.ofYaml? with
    | some v => .ok v
    | none => .error .yaml

end Document

/-- The step records of a document, in order. -/
structure Scenario where
  commands : List Value := []
deriving Repr

namespace Scenario

/-- The records of a value: a record with a list of commands or without one, or a list whose only
item is that list. -/
def ofValue : Value → Except ScenarioError Scenario
  | .null => .ok {}
  | .obj fields =>
    match Fields.get? "commands" fields with
    | none => .ok {}
    | some (.arr commands) => .ok { commands }
    | some _ => .error .json
  | .arr [] => .ok {}
  | .arr [.arr commands] => .ok { commands }
  | _ => .error .json

/-- The scenario of a document. -/
def ofText (text : String) : Except ScenarioError Scenario :=
  if text.toList.all Text.isBlank then .ok {}
  else (Document.value (Text.Utf8.ofString text)).bind ofValue

/-- The kind that a record declares, which is empty if there is none. -/
def kindOf (record : Value) : String :=
  match record with
  | .obj fields => ((Fields.get? "type" fields).bind Value.str?).getD ""
  | _ => ""

/-- The declared kinds in order. -/
def kinds (scenario : Scenario) : List String :=
  scenario.commands.map kindOf

/-- A list of records as a document. -/
def document (commands : List Value) : String :=
  (Value.obj [("commands", .arr commands)]).text

end Scenario

/-- The text of a file. -/
def Disk.readText (disk : Disk) (path : String) : Except ScenarioError String :=
  match disk.read path with
  | .error e => .error (.unreadable path e)
  | .ok bytes =>
    match Text.Utf8.toString? bytes with
    | some text => .ok text
    | none => .error (.unreadable path .notText)

/-- The scenario of a file. -/
def Scenario.load (disk : Disk) (path : String) : Except ScenarioError Scenario :=
  (disk.readText path).bind Scenario.ofText

/-- The variables of a document: a record, or nothing. -/
def Namespace.ofText (text : String) : Except ScenarioError Namespace :=
  if text.toList.all Text.isBlank then .ok []
  else
    match Document.value (Text.Utf8.ofString text) with
    | .ok (.obj fields) => .ok fields
    | .ok .null => .ok []
    | .ok _ => .error .json
    | .error e => .error e

/-- The variables of a file. -/
def Namespace.load (disk : Disk) (path : String) : Except ScenarioError Namespace :=
  (disk.readText path).bind Namespace.ofText

end Runbook
