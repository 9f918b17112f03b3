import Runbook.Condition.Operator
import Runbook.Decimal.Reading
import Runbook.Text.Case
/-!
# Functions of conditions

What may be called on data without any helper:

* `onText`, `onWord`, `onDouble`, `onList`, `onRecord`, `onRange` — functions of one type, which
  change nothing;
* `update?` — functions that change the variable they are called on;
* `native?` — the function with a name for given arguments, if there is one;
* `property?`, `index?` — a step into a datum.

`Invoke` calls a function that is an argument.
-/

namespace Runbook.Condition

open Runbook.Text

/-- How a function that is an argument is called. -/
abbrev Invoke := Datum → List Datum → Result Datum

/-! ### Arguments -/

/-- A truth value as an answer. -/
def yes (b : Bool) : Option (Result Datum) := some (.ok (.bool b))

/-- A natural number as an answer. -/
def count (n : Nat) : Option (Result Datum) := some (.ok (.int n))

/-- A text as an answer. -/
def text (cs : List Char) : Option (Result Datum) := some (.ok (.str (String.ofList cs)))

/-- The characters of a text or of a character. -/
def Datum.chars? : Datum → Option (List Char)
  | .str s => some s.toList
  | .char c => some [c]
  | _ => none

/-- A list of texts. -/
def textsDatum (pieces : List (List Char)) : Datum :=
  .list (pieces.map fun piece => .str (String.ofList piece))

/-- The place of an index, which counts from the end when it is negative. -/
def place? (length : Nat) (i : Int) : Option Nat :=
  if i < 0 then (if i.natAbs ≤ length then some (length - i.natAbs) else none)
  else if i < length then some i.toNat
  else none

/-- A starting place; what lies before the front is the front. -/
def startPlace (length : Nat) (i : Int) : Nat :=
  if i < 0 then length - i.natAbs else min length i.toNat

/-- A slice from a starting place. -/
def sliceFrom {α : Type} (xs : List α) (start len : Int) : List α :=
  if len ≤ 0 then [] else (xs.drop (startPlace xs.length start)).take len.toNat

/-- The start and length of a slice that a range stands for. -/
def rangeSlice (start stop : Int) (closed : Bool) : Int × Int :=
  let start := max start 0
  (start, (max stop start) - start + (if closed then 1 else 0))

/-! ### Texts -/

/-- The place of the first occurrence of `part` at or behind `start`. -/
def findText (part : List Char) (start : Nat) (cs : List Char) : Int :=
  go start (cs.drop start)
where
  go (at_ : Nat) : List Char → Int
    | [] => if part.isEmpty then at_ else -1
    | c :: cs => if part.isPrefixOf (c :: cs) then at_ else go (at_ + 1) cs

/-- The first pieces, and all others as the last one. -/
def splitLimited (sep cs : List Char) (limit : Nat) : List (List Char) :=
  let pieces := splitOn sep cs
  if pieces.length ≤ limit then pieces
  else pieces.take (limit - 1) ++ [joinWith sep (pieces.drop (limit - 1))]

/-- A text as an integer in a base. -/
def parseInt (cs : List Char) (base : Int) : Result Datum :=
  if base < 2 ∨ 36 < base then .error (.arithmetic "Invalid radix")
  else
    match (Decimal.readInt? base.toNat (trim cs)).filter isWordRange with
    | some i => .ok (.int i)
    | none => .error (.arithmetic "Error parsing integer number")

/-- A text as a double. -/
def parseFloat (cs : List Char) : Result Datum :=
  match Decimal.readDouble? (trim cs) with
  | some d => .ok (.double d)
  | none => .error (.arithmetic "Error parsing floating-point number")

/-- Functions of texts. -/
def onText (name : String) (cs : List Char) : List Datum → Option (Result Datum)
  | [] =>
    match name with
    | "len" => count cs.length
    | "bytes" => count (String.ofList cs).utf8ByteSize
    | "is_empty" => yes cs.isEmpty
    | "to_upper" => text (upper cs)
    | "to_lower" => text (lower cs)
    | "to_chars" => some (.ok (.list (cs.map .char)))
    | "split" => some (.ok (textsDatum ((splitBy isBlank cs).filter (!·.isEmpty))))
    | "parse_int" => some (parseInt cs 10)
    | "parse_float" => some (parseFloat cs)
    | _ => none
  | [.int i] =>
    match name with
    | "get" =>
      some (.ok (((place? cs.length i).bind (cs[·]?)).elim .unit .char))
    | "sub_string" => text (sliceFrom cs i cs.length)
    | "split" =>
      let at_ := startPlace cs.length i
      some (.ok (textsDatum [cs.take at_, cs.drop at_]))
    | "parse_int" => some (parseInt cs i)
    | _ => none
  | [.int i, .int j] => if name = "sub_string" then text (sliceFrom cs i j) else none
  | [.range start stop closed] =>
    let (start, len) := rangeSlice start stop closed
    if name = "sub_string" then text (sliceFrom cs start len) else none
  | [d] =>
    d.chars?.bind fun part =>
      match name with
      | "contains" => yes (contains part cs)
      | "starts_with" => yes (part.isPrefixOf cs)
      | "ends_with" => yes (part.isSuffixOf cs)
      | "index_of" => some (.ok (.int (findText part 0 cs)))
      | "split" => some (.ok (textsDatum (splitOn part cs)))
      | "split_rev" => some (.ok (textsDatum (splitOn part cs).reverse))
      | _ => none
  | [d, .int i] =>
    d.chars?.bind fun part =>
      match name with
      | "index_of" =>
        if (cs.length : Int) ≤ i then some (.ok (.int (-1)))
        else some (.ok (.int (findText part (startPlace cs.length i) cs)))
      | "split" => some (.ok (textsDatum (splitLimited part cs (max i 1).toNat)))
      | _ => none
  | _ => none

/-! ### Numbers -/

/-- The digits of a word's bits in a base. -/
def digitsIn (base : Nat) (i : Int) : List Char :=
  Nat.toDigits base (bits i)

/-- The larger or smaller of two numbers; a word and a double give a double. -/
def extreme? (larger : Bool) : Datum → Datum → Option (Result Datum)
  | .int i, .int j => some (.ok (.int (if larger then max i j else min i j)))
  | .double x, .double y => doubles x y
  | .int i, .double y => doubles (Double.ofInt i) y
  | .double x, .int j => doubles x (Double.ofInt j)
  | _, _ => none
where
  /-- The larger or smaller of two doubles. -/
  doubles (x y : Double) : Option (Result Datum) :=
    some (.ok (.double (if larger then Double.max x y else Double.min x y)))

/-- Functions of words. -/
def onWord (name : String) (i : Int) : List Datum → Option (Result Datum)
  | [] =>
    match name with
    | "abs" => some (checked "Negation overflow" i.natAbs)
    | "sign" => some (.ok (.int i.sign))
    | "is_zero" => yes (i == 0)
    | "is_odd" => yes (i % 2 == 1)
    | "is_even" => yes (i % 2 == 0)
    | "to_float" => some (.ok (.double (Double.ofInt i)))
    | "to_hex" => text (digitsIn 16 i)
    | "to_octal" => text (digitsIn 8 i)
    | "to_binary" => text (digitsIn 2 i)
    | _ => none
  | _ => none

/-- A function on machine numbers. -/
def onFloat (f : Float → Float) (d : Double) : Option (Result Datum) :=
  some (.ok (.double (Double.ofFloat (f d.toFloat))))

/-- A double as a word. -/
def toWord (d : Double) : Result Datum :=
  if d.isFinite then checked "Integer overflow" d.truncate
  else .error (.arithmetic "Integer overflow")

/-- Functions of doubles. -/
def onDouble (name : String) (d : Double) : List Datum → Option (Result Datum)
  | [] =>
    match name with
    | "abs" => some (.ok (.double d.abs))
    | "sign" =>
      if d.isNaN then some (.error (.arithmetic "Sign of NaN is undefined"))
      else some (.ok (.int (if d.isZero then 0 else if d.isNegative then -1 else 1)))
    | "is_zero" => yes d.isZero
    | "is_nan" => yes d.isNaN
    | "is_finite" => yes d.isFinite
    | "is_infinite" => yes (!d.isFinite && !d.isNaN)
    | "floor" => some (.ok (.double d.floor))
    | "ceiling" => some (.ok (.double d.ceil))
    | "round" => some (.ok (.double d.round))
    | "int" => some (.ok (.double d.trunc))
    | "fraction" => some (.ok (.double (Double.sub d d.trunc)))
    | "to_int" => some (toWord d)
    | "sqrt" => onFloat Float.sqrt d
    | "exp" => onFloat Float.exp d
    | "ln" => onFloat Float.log d
    | "log" => onFloat Float.log10 d
    | "sin" => onFloat Float.sin d
    | "cos" => onFloat Float.cos d
    | "tan" => onFloat Float.tan d
    | "asin" => onFloat Float.asin d
    | "acos" => onFloat Float.acos d
    | "atan" => onFloat Float.atan d
    | "sinh" => onFloat Float.sinh d
    | "cosh" => onFloat Float.cosh d
    | "tanh" => onFloat Float.tanh d
    | _ => none
  | _ => none

/-! ### Lists, records and ranges -/

/-- Whether a function that is an argument says yes. -/
def holds (invoke : Invoke) (f : Datum) (item : Datum) (i : Nat) : Result Bool :=
  (callItem invoke f item i).map fun d =>
    match d with
    | .bool b => b
    | _ => false
where
  /-- Call a function with an item and, if it takes one, its index. -/
  callItem (invoke : Invoke) (f item : Datum) (i : Nat) : Result Datum :=
    match f with
    | .function [_, _] _ _ => invoke f [item, .int i]
    | f => invoke f [item]

/-- Whether an item of a list is equal to a datum. -/
def hasEqual (d : Datum) : List Datum → Result Bool
  | [] => .ok false
  | item :: rest => do if ← item.equal d then pure true else hasEqual d rest

/-- The index of the first item equal to a datum. -/
def indexOfEqual (d : Datum) (i : Nat) : List Datum → Result Datum
  | [] => .ok (.int (-1))
  | item :: rest => do if ← item.equal d then pure (.int i) else indexOfEqual d (i + 1) rest

/-- The first item that a function accepts, with its index. -/
def findBy (invoke : Invoke) (f : Datum) (i : Nat) : List Datum → Result (Option (Nat × Datum))
  | [] => .ok none
  | item :: rest => do
    if ← holds invoke f item i then pure (some (i, item)) else findBy invoke f (i + 1) rest

/-- The items that a function accepts. -/
def filterBy (invoke : Invoke) (f : Datum) (i : Nat) : List Datum → Result (List Datum)
  | [] => .ok []
  | item :: rest => do
    let accepted ← holds invoke f item i
    let others ← filterBy invoke f (i + 1) rest
    pure (if accepted then item :: others else others)

/-- The results of a function. -/
def mapBy (invoke : Invoke) (f : Datum) (i : Nat) : List Datum → Result (List Datum)
  | [] => .ok []
  | item :: rest => do
    let image ← holds.callItem invoke f item i
    let others ← mapBy invoke f (i + 1) rest
    pure (image :: others)

/-- Fold a list from the front. -/
def foldBy (invoke : Invoke) (f : Datum) (acc : Datum) (i : Nat) : List Datum → Result Datum
  | [] => .ok acc
  | item :: rest => do
    let acc ← match f with
      | .function [_, _, _] _ _ => invoke f [acc, item, .int i]
      | f => invoke f [acc, item]
    foldBy invoke f acc (i + 1) rest

/-- Functions of lists that take a function. -/
def onListBy (invoke : Invoke) (name : String) (items : List Datum) (f : Datum) :
    Option (Result Datum) :=
  match name with
  | "map" => some ((mapBy invoke f 0 items).map .list)
  | "filter" => some ((filterBy invoke f 0 items).map .list)
  | "some" => some ((findBy invoke f 0 items).map fun found => .bool found.isSome)
  | "all" => some ((filterBy invoke f 0 items).map fun kept => .bool (kept.length == items.length))
  | "find" => some ((findBy invoke f 0 items).map fun found => found.elim .unit Prod.snd)
  | "index_of" => some ((findBy invoke f 0 items).map fun found => .int (found.elim (-1) (·.1)))
  | "reduce" => some (foldBy invoke f .unit 0 items)
  | "for_each" => some ((mapBy invoke f 0 items).map fun _ => .unit)
  | _ => none

/-- Functions of lists. -/
def onList (invoke : Invoke) (name : String) (items : List Datum) :
    List Datum → Option (Result Datum)
  | [] =>
    match name with
    | "len" => count items.length
    | "is_empty" => yes items.isEmpty
    | _ => none
  | [.function params body captured] =>
    let f := Datum.function params body captured
    if name = "contains" then some ((hasEqual f items).map .bool)
    else onListBy invoke name items f
  | [.function params body captured, start] =>
    if name = "reduce" then some (foldBy invoke (.function params body captured) start 0 items)
    else none
  | [.range start stop closed] =>
    let (start, len) := rangeSlice start stop closed
    match name with
    | "extract" => some (.ok (.list (sliceFrom items start len)))
    | "contains" => some ((hasEqual (.range start stop closed) items).map .bool)
    | _ => none
  | [d] =>
    match name, d with
    | "contains", d => some ((hasEqual d items).map .bool)
    | "index_of", d => some (indexOfEqual d 0 items)
    | "get", .int i => some (.ok ((place? items.length i).bind (items[·]?) |>.getD .unit))
    | "extract", .int i => some (.ok (.list (sliceFrom items i items.length)))
    | "split", .int i =>
      let at_ := startPlace items.length i
      some (.ok (.list [.list (items.take at_), .list (items.drop at_)]))
    | _, _ => none
  | [.int i, .int j] =>
    if name = "extract" then some (.ok (.list (sliceFrom items i j))) else none
  | _ => none

/-- Functions of records. -/
def onRecord (name : String) (fields : List (String × Datum)) : List Datum → Option (Result Datum)
  | [] =>
    match name with
    | "len" => count fields.length
    | "is_empty" => yes fields.isEmpty
    | "keys" => some (.ok (.list (fields.map fun f => .str f.1)))
    | "values" => some (.ok (.list (fields.map Prod.snd)))
    | _ => none
  | [.str key] =>
    match name with
    | "contains" => yes (Datum.field? key fields).isSome
    | "get" => some (.ok ((Datum.field? key fields).getD .unit))
    | _ => none
  | _ => none

/-- Functions of ranges. -/
def onRange (name : String) (start stop : Int) (closed : Bool) :
    List Datum → Option (Result Datum)
  | [] =>
    match name with
    | "start" => some (.ok (.int start))
    | "end" => some (.ok (.int stop))
    | "is_inclusive" => yes closed
    | "is_exclusive" => yes (!closed)
    | "is_empty" => yes (if closed then stop < start else stop ≤ start)
    | _ => none
  | [.int i] =>
    if name = "contains" then yes (start ≤ i && (if closed then i ≤ stop else i < stop)) else none
  | _ => none

/-! ### Functions that change a variable -/

/-- A function that changes its first argument: its result and the changed argument. -/
def update? (name : String) (target : Datum) (args : List Datum) :
    Option (Datum × Datum) :=
  match target, name, args with
  | .list items, "push", [d] => some (.unit, .list (items ++ [d]))
  | .list items, "append", [.list more] => some (.unit, .list (items ++ more))
  | .list items, "insert", [.int i, d] =>
    let at_ := startPlace items.length i
    some (.unit, .list (items.take at_ ++ d :: items.drop at_))
  | .list items, "pop", [] => some (items.getLast?.getD .unit, .list items.dropLast)
  | .list items, "shift", [] => some (items.head?.getD .unit, .list (items.drop 1))
  | .list items, "remove", [.int i] =>
    match place? items.length i with
    | some at_ => some ((items[at_]?).getD .unit, .list (items.eraseIdx at_))
    | none => some (.unit, target)
  | .list _, "clear", [] => some (.unit, .list [])
  | .list items, "reverse", [] => some (.unit, .list items.reverse)
  | .list items, "truncate", [.int n] => some (.unit, .list (items.take n.toNat))
  | .list items, "chop", [.int n] =>
    some (.unit, .list (items.drop (items.length - n.toNat)))
  | .record fields, "remove", [.str key] =>
    some ((Datum.field? key fields).getD .unit, .record (Datum.dropField key fields))
  | .record fields, "set", [.str key, d] => some (.unit, .record (Datum.setField key d fields))
  | .record _, "clear", [] => some (.unit, .record [])
  | .str s, "trim", [] => some (.unit, .str (trimString s))
  | .str _, "clear", [] => some (.unit, .str "")
  | .str s, "make_upper", [] => some (.unit, .str (String.ofList (upper s.toList)))
  | .str s, "make_lower", [] => some (.unit, .str (String.ofList (lower s.toList)))
  | .str s, "truncate", [.int n] => some (.unit, .str (String.ofList (s.toList.take n.toNat)))
  | .str s, "crop", [.int i] => some (.unit, .str (String.ofList (sliceFrom s.toList i s.length)))
  | .str s, "crop", [.int i, .int n] => some (.unit, .str (String.ofList (sliceFrom s.toList i n)))
  | .str s, "append", [d] => some (.unit, .str (s ++ d.shown))
  | .str s, "remove", [d] =>
    d.chars?.map fun part => (.unit, .str (replaceString s (String.ofList part) ""))
  | .str s, "replace", [d, e] =>
    d.chars?.bind fun part => e.chars?.map fun new =>
      (.unit, .str (String.ofList (replaceAll part new s.toList)))
  | .str s, "pop", [] =>
    some ((s.toList.getLast?).elim .unit .char, .str (String.ofList s.toList.dropLast))
  | _, _, _ => none

/-! ### All functions -/

/-- The function with a name for the types of its arguments. -/
def native? (invoke : Invoke) (name : String) (args : List Datum) : Option (Result Datum) :=
  match name, args with
  | "to_string", [d] => some (.ok (.str d.shown))
  | "to_debug", [d] => some (.ok (.str d.debug))
  | "max", [a, b] => extreme? true a b
  | "min", [a, b] => extreme? false a b
  | "PI", [] => onFloat (fun _ => 3.14159265358979323846) Double.zero
  | "E", [] => onFloat (fun _ => 2.71828182845904523536) Double.zero
  | "to_int", [.char c] => count c.toNat
  | "to_upper", [.char c] => some (.ok (match upperChar c with | [u] => .char u | _ => .char c))
  | "to_lower", [.char c] => some (.ok (match lowerChar c with | [l] => .char l | _ => .char c))
  | name, .str s :: rest => onText name s.toList rest
  | name, .int i :: rest => onWord name i rest
  | name, .double d :: rest => onDouble name d rest
  | name, .list items :: rest => onList invoke name items rest
  | name, .record fields :: rest => onRecord name fields rest
  | name, .range start stop closed :: rest => onRange name start stop closed rest
  | _, _ => none

/-- The functions that may also be read as properties. -/
def propertyNames : List String :=
  ["len", "bytes", "is_empty", "is_zero", "is_odd", "is_even", "floor", "ceiling", "round", "int",
    "fraction", "is_nan", "is_finite", "is_infinite", "start", "end", "is_inclusive",
    "is_exclusive"]

/-- A property of a datum; a record has the properties that are its keys, and the unit for all
others. -/
def property? (invoke : Invoke) (d : Datum) (name : String) : Result Datum :=
  match d with
  | .record fields => .ok ((Datum.field? name fields).getD .unit)
  | d =>
    if name = "tag" then .ok (.int 0)
    else
      match if propertyNames.contains name then native? invoke name [d] else none with
      | some result => result
      | none => .error .unknownProperty

/-- The bit of a word. -/
def bitOf (i index : Int) : Result Datum :=
  match place? 64 index with
  | some at_ => .ok (.bool ((bits i).testBit at_))
  | none => .error (.arithmetic (if index < 0 then "Bit-field index -" else "Bit-field index"))

/-- A bound of a range in a text of a length; one that is negative counts from the end. -/
def bound (length : Nat) (i : Int) : Result Nat :=
  if 0 ≤ i then .ok i.toNat
  else
    match place? length i with
    | some at_ => .ok at_
    | none => .error (.stringIndex true)

/-- The characters of a range. -/
def textRange (cs : List Char) (start stop : Int) (closed : Bool) : Result Datum := do
  let start ← bound cs.length start
  let stop ← bound cs.length stop
  pure (.str (String.ofList ((cs.take (if closed then stop + 1 else stop)).drop start)))

/-- A bound of a range of bits. -/
def bitBound (i : Int) (closed : Bool) : Result Nat :=
  match place? (if closed then 64 else 65) i with
  | some at_ => .ok at_
  | none => .error (.arithmetic (if i < 0 then "Bit-field index -" else "Bit-field index"))

/-- The bits of a range as a word. -/
def bitRange (i start stop : Int) (closed : Bool) : Result Datum := do
  let start ← bitBound start true
  let stop ← bitBound stop closed
  let stop := if closed then stop + 1 else stop
  pure (.int (ofBits ((bits i / Nat.pow 2 start) % Nat.pow 2 (stop - start))))

/-- What stands at an index of a datum. -/
def index? (d index : Datum) : Result Datum :=
  match d, index with
  | .list items, .int i =>
    match (place? items.length i).bind (items[·]?) with
    | some item => .ok item
    | none => .error (.arrayIndex (i < 0))
  | .list _, _ => .error .dataType
  | .record fields, .str key => .ok ((Datum.field? key fields).getD .unit)
  | .record _, _ => .error .dataType
  | .str s, .int i =>
    match (place? s.toList.length i).bind (s.toList[·]?) with
    | some c => .ok (.char c)
    | none => .error (.stringIndex (i < 0))
  | .str s, .range start stop closed => textRange s.toList start stop closed
  | .str _, _ => .error .dataType
  | .int i, .int n => bitOf i n
  | .int i, .range start stop closed => bitRange i start stop closed
  | .int _, _ => .error .dataType
  | _, _ => .error .unknownIndexer

end Runbook.Condition
