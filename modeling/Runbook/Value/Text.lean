import Runbook.Value.Basic
import Runbook.Decimal.Layout
/-!
# The text of values

Values written as documents in braces and brackets:

* `Number.text` — integers in digits, doubles in the form `Decimal.data`;
* `escaped` — a string between quotes, with the escapes of the format;
* `Value.text` — the compact form, without blanks;
* `Value.pretty` — one entry a line, indented by two spaces a level.
-/

namespace Runbook

/-- Digits of an integer, or the document form of a double. -/
def Number.text : Number → String
  | .int i => Text.intText i
  | .double d => Decimal.data d

namespace Value

/-- The lower-case hexadecimal digit. -/
def hexDigit (n : Nat) : Char :=
  Nat.digitChar n

/-- One character inside quotes. -/
def escapedChar (c : Char) : List Char :=
  if c = '"' then ['\\', '"']
  else if c = '\\' then ['\\', '\\']
  else if c = '\n' then ['\\', 'n']
  else if c = '\r' then ['\\', 'r']
  else if c = '\t' then ['\\', 't']
  else if c = '\x08' then ['\\', 'b']
  else if c = '\x0c' then ['\\', 'f']
  else if c.toNat < 32 then
    ['\\', 'u', '0', '0', hexDigit (c.toNat / 16), hexDigit (c.toNat % 16)]
  else [c]

/-- A string between quotes. -/
def escaped (s : String) : String :=
  String.ofList ('"' :: (s.toList.flatMap escapedChar ++ ['"']))

mutual

/-- The compact form. -/
def text : Value → String
  | .null => "null"
  | .bool true => "true"
  | .bool false => "false"
  | .num n => n.text
  | .str s => escaped s
  | .arr items => "[" ++ textItems items ++ "]"
  | .obj fields => "\x7b" ++ textFields fields ++ "\x7d"
termination_by structural v => v

/-- The items separated by commas. -/
def textItems : List Value → String
  | [] => ""
  | v :: rest => text v ++ textMoreItems rest
termination_by structural v => v

/-- The items after the first, each behind a comma. -/
def textMoreItems : List Value → String
  | [] => ""
  | v :: rest => "," ++ text v ++ textMoreItems rest
termination_by structural v => v

/-- The entries separated by commas. -/
def textFields : List (String × Value) → String
  | [] => ""
  | kv :: rest => textEntry kv ++ textMoreFields rest
termination_by structural v => v

/-- The entries after the first, each behind a comma. -/
def textMoreFields : List (String × Value) → String
  | [] => ""
  | kv :: rest => "," ++ textEntry kv ++ textMoreFields rest
termination_by structural v => v

/-- A key and its value. -/
def textEntry : String × Value → String
  | (k, v) => escaped k ++ ":" ++ text v
termination_by structural v => v

end

/-- A line break and two spaces a level. -/
def newLine (level : Nat) : String :=
  String.ofList ('\n' :: List.replicate (2 * level) ' ')

mutual

/-- The form with one entry a line, at a level of indentation. -/
def prettyAt (level : Nat) : Value → String
  | .null => "null"
  | .bool true => "true"
  | .bool false => "false"
  | .num n => n.text
  | .str s => escaped s
  | .arr [] => "[]"
  | .arr (v :: rest) =>
    "[" ++ newLine (level + 1) ++ prettyAt (level + 1) v ++ prettyItems (level + 1) rest
      ++ newLine level ++ "]"
  | .obj [] => "\x7b\x7d"
  | .obj (kv :: rest) =>
    "\x7b" ++ newLine (level + 1) ++ prettyEntry (level + 1) kv ++ prettyFields (level + 1) rest
      ++ newLine level ++ "\x7d"
termination_by structural v => v

/-- The items after the first, each on a line of its own. -/
def prettyItems (level : Nat) : List Value → String
  | [] => ""
  | v :: rest => "," ++ newLine level ++ prettyAt level v ++ prettyItems level rest
termination_by structural v => v

/-- The entries after the first, each on a line of its own. -/
def prettyFields (level : Nat) : List (String × Value) → String
  | [] => ""
  | kv :: rest => "," ++ newLine level ++ prettyEntry level kv ++ prettyFields level rest
termination_by structural v => v

/-- A key and its value. -/
def prettyEntry (level : Nat) : String × Value → String
  | (k, v) => escaped k ++ ": " ++ prettyAt level v
termination_by structural v => v

end

/-- The form with one entry a line. -/
def pretty (v : Value) : String :=
  prettyAt 0 v

end Value

end Runbook
