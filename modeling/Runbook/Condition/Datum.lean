import Runbook.Condition.Expr
import Runbook.Decimal.Layout
import Runbook.Text.Quoted
import Runbook.Value.Basic
/-!
# Data of conditions

What expressions compute with:

* `Datum` — the unit, truth values, signed words, doubles, characters, texts, lists, records,
  ranges and functions;
* `Datum.ofValue`, `Datum.toValue?` — a variable as a datum and back; ranges and functions are no
  values;
* `Datum.typeName` — the name of a type as messages show it;
* `Datum.shown`, `Datum.debug` — the text of a datum on its own and inside another one;
* `Failure` — why an evaluation ends without a result.
-/

namespace Runbook.Condition

/-- A datum. -/
inductive Datum where
  | unit
  | bool (value : Bool)
  | int (value : Int)
  | double (value : Double)
  | char (c : Char)
  | str (text : String)
  | list (items : List Datum)
  | record (fields : List (String × Datum))
  | range (start stop : Int) (closed : Bool)
  | function (params : List String) (body : Expr) (captured : List (String × Datum))

instance : Inhabited Datum := ⟨.unit⟩

/-- The variables in sight, the innermost first. -/
abbrev Scope := List (String × Datum)

/-! ### Failures -/

/-- Why an evaluation fails; a negative index is told apart. -/
inductive Failure where
  | unreadable
  | missingVariable
  | missingFunction
  | missingModule
  | unknownProperty
  | unknownIndexer
  | dataType
  | outputType
  | arrayIndex (negative : Bool)
  | stringIndex (negative : Bool)
  | arithmetic (what : String)
  | tooDeep
  | raised (message : String)
deriving DecidableEq, Repr

/-- What a failure says. -/
def Failure.message : Failure → String
  | .unreadable => "Syntax error"
  | .missingVariable => "Variable not found"
  | .missingFunction => "Function not found"
  | .missingModule => "Module not found"
  | .unknownProperty => "Unknown property"
  | .unknownIndexer => "Indexer unknown"
  | .dataType => "Data type incorrect"
  | .outputType => "Output type incorrect"
  | .arrayIndex negative => if negative then "Array index -" else "Array index"
  | .stringIndex negative => if negative then "String index -" else "String index"
  | .arithmetic what => what
  | .tooDeep => "Stack overflow"
  | .raised message => "Runtime error: " ++ message

/-- What evaluation gives. -/
abbrev Result (α : Type) := Except Failure α

/-! ### Types -/

namespace Datum

/-- The name of the type of a datum, as a message shows it. -/
def typeName : Datum → String
  | .unit => "()"
  | .bool _ => "bool"
  | .int _ => "i64"
  | .double _ => "f64"
  | .char _ => "char"
  | .str _ => "string"
  | .list _ => "array"
  | .record _ => "map"
  | .range _ _ false => "core::ops::range::Range<i64>"
  | .range _ _ true => "core::ops::range::RangeInclusive<i64>"
  | .function _ _ _ => "Fn"

/-- The name of the type of a datum, as the expression language gives it. -/
def typeWord : Datum → String
  | .range _ _ false => "range"
  | .range _ _ true => "range="
  | d => d.typeName

/-- Whether two data have the same type. -/
def sameType (a b : Datum) : Bool :=
  a.typeName == b.typeName

/-! ### Variables -/

/-- A number: an integer in the range of signed words, or a double. -/
def ofNumber (n : Number) : Datum :=
  match n.signed? with
  | some i => .int i
  | none => .double n.toDouble

mutual

/-- A value as a datum. -/
def ofValue : Value → Datum
  | .null => .unit
  | .bool b => .bool b
  | .num n => ofNumber n
  | .str s => .str s
  | .arr items => .list (ofItems items)
  | .obj fields => .record (ofFields fields)
termination_by structural v => v

/-- The items of a list as data. -/
def ofItems : List Value → List Datum
  | [] => []
  | v :: rest => ofValue v :: ofItems rest
termination_by structural vs => vs

/-- The entries of a record as data. -/
def ofFields : List (String × Value) → List (String × Datum)
  | [] => []
  | entry :: rest => ofEntry entry :: ofFields rest
termination_by structural fields => fields

/-- An entry as a datum. -/
def ofEntry : String × Value → String × Datum
  | (k, v) => (k, ofValue v)
termination_by structural entry => entry

end

mutual

/-- A datum as a value; a double that is not finite becomes null. -/
def toValue? : Datum → Option Value
  | .unit => some .null
  | .bool b => some (.bool b)
  | .int i => some (.int i)
  | .double d => some (if d.isFinite then .num (.double d) else .null)
  | .char c => some (.str (String.ofList [c]))
  | .str s => some (.str s)
  | .list items => (toItems? items).map .arr
  | .record fields => (toFields? fields).map .obj
  | .range _ _ _ => none
  | .function _ _ _ => none
termination_by structural d => d

/-- The items of a list as values. -/
def toItems? : List Datum → Option (List Value)
  | [] => some []
  | d :: rest => (toValue? d).bind fun v => (toItems? rest).map (v :: ·)
termination_by structural ds => ds

/-- The entries of a record as values. -/
def toFields? : List (String × Datum) → Option (List (String × Value))
  | [] => some []
  | entry :: rest => (toField? entry).bind fun v => (toFields? rest).map (v :: ·)
termination_by structural fields => fields

/-- An entry as a value. -/
def toField? : String × Datum → Option (String × Value)
  | (k, d) => (toValue? d).map fun v => (k, v)
termination_by structural entry => entry

end

/-! ### Texts -/

/-- From here up a double is shown with an exponent. -/
def largePlain : Double := Double.ofInt (Int.pow 10 13)

/-- Down to here a double is shown without an exponent. -/
def smallPlain : Double := Double.ofRatio false 1 (Nat.pow 10 13)

/-- The text of a double. -/
def doubleText (d : Double) : String :=
  if d.isZero then "0.0"
  else if d.isNaN then "NaN"
  else if Double.lt largePlain d.abs || Double.lt d.abs smallPlain then Decimal.scientific d
  else if d.isIntegral then Decimal.plain d ++ ".0"
  else Decimal.plain d

/-- A character between single quotes. -/
def debugChar (c : Char) : String :=
  if c = '"' then "'\"'"
  else if c = '\'' then "'\\''"
  else String.ofList ('\'' :: (Text.debugChar c ++ ['\'']))

mutual

/-- The text of a datum inside another one. -/
def debug : Datum → String
  | .unit => "()"
  | .bool b => if b then "true" else "false"
  | .int i => Text.intText i
  | .double d => doubleText d
  | .char c => debugChar c
  | .str s => Text.quoted s
  | .list items => "[" ++ debugItems items ++ "]"
  | .record fields => "#\x7b" ++ debugFields fields ++ "\x7d"
  | .range start stop closed =>
    Text.intText start ++ (if closed then "..=" else "..") ++ Text.intText stop
  | .function _ _ _ => "Fn"
termination_by structural d => d

/-- Items with commas between them. -/
def debugItems : List Datum → String
  | [] => ""
  | d :: rest => debug d ++ debugMoreItems rest
termination_by structural ds => ds

/-- Items, each behind a comma. -/
def debugMoreItems : List Datum → String
  | [] => ""
  | d :: rest => ", " ++ debug d ++ debugMoreItems rest
termination_by structural ds => ds

/-- Entries with commas between them. -/
def debugFields : List (String × Datum) → String
  | [] => ""
  | entry :: rest => debugEntry entry ++ debugMoreFields rest
termination_by structural fields => fields

/-- Entries, each behind a comma. -/
def debugMoreFields : List (String × Datum) → String
  | [] => ""
  | entry :: rest => ", " ++ debugEntry entry ++ debugMoreFields rest
termination_by structural fields => fields

/-- A key and its datum. -/
def debugEntry : String × Datum → String
  | (k, d) => Text.quoted k ++ ": " ++ debug d
termination_by structural entry => entry

end

/-- The text of a datum on its own. -/
def shown : Datum → String
  | .unit => ""
  | .char c => String.ofList [c]
  | .str s => s
  | d => d.debug

/-- The field of a record. -/
def field? (key : String) : List (String × Datum) → Option Datum
  | [] => none
  | (k, d) :: rest => if k = key then some d else field? key rest

/-- Bind a key of a record, in the order of keys. -/
def setField (key : String) (d : Datum) : List (String × Datum) → List (String × Datum)
  | [] => [(key, d)]
  | (k, e) :: rest =>
    if k = key then (key, d) :: rest
    else if key < k then (key, d) :: (k, e) :: rest
    else (k, e) :: setField key d rest

/-- Drop a key of a record. -/
def dropField (key : String) : List (String × Datum) → List (String × Datum)
  | [] => []
  | (k, e) :: rest => if k = key then rest else (k, e) :: dropField key rest

end Datum

end Runbook.Condition
