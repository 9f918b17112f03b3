import Runbook.Value.Text
import Runbook.Template.Lookup
import Runbook.Text.Case
import Runbook.Text.Utf8
/-!
# Filters and tests

What a template can apply to a value:

* `Value.shown` — a value as it stands in a rendered text;
* `Filter` — a function of a value and named arguments that may refuse its input;
* `Filter.builtin?` — the filters of the template language by name;
* `Check.builtin?` — the tests, which also take a missing value;
* `Function.builtin?` — the functions.

String filters refuse other values, and arguments of a wrong kind are refused too.
-/

namespace Runbook

namespace Value

/-- A number in a text: doubles are positional and an integral one has no point. -/
def shownNumber : Number → String
  | .int i => Text.intText i
  | .double d => Decimal.plain d

mutual

/-- A value in a text: strings as they are, null as nothing, lists in brackets, and no record's
entries. -/
def shown : Value → String
  | .null => ""
  | .bool true => "true"
  | .bool false => "false"
  | .num n => shownNumber n
  | .str s => s
  | .arr items => "[" ++ shownItems items ++ "]"
  | .obj _ => "[object]"
termination_by structural v => v

/-- Items separated by commas. -/
def shownItems : List Value → String
  | [] => ""
  | v :: rest => shown v ++ shownMoreItems rest
termination_by structural v => v

/-- Items after the first, each behind a comma. -/
def shownMoreItems : List Value → String
  | [] => ""
  | v :: rest => ", " ++ shown v ++ shownMoreItems rest
termination_by structural v => v

end

/-- Whether a value counts as true: not zero, not empty and not null. -/
def truthy : Value → Bool
  | .null => false
  | .bool b => b
  | .num (.int i) => i != 0
  | .num (.double d) => !d.isZero && !d.isNaN
  | .str s => !s.isEmpty
  | .arr items => !items.isEmpty
  | .obj fields => !fields.isEmpty

end Value

namespace Template

open Runbook.Text

/-- Named arguments with their values. -/
abbrev Named := List (String × Value)

/-- A filter; it may refuse its input. -/
abbrev Filter := Value → Named → Option Value

/-- The value of a named argument. -/
def Named.find? (args : Named) (name : String) : Option Value :=
  Fields.get? name args

/-- A string argument with a default value; another kind of value is refused. -/
def Named.text? (args : Named) (name default : String) : Option String :=
  match args.find? name with
  | none => some default
  | some v => v.str?

/-- A required string argument. -/
def Named.needText? (args : Named) (name : String) : Option String :=
  (args.find? name).bind Value.str?

/-- The natural number of a value. -/
def nat? : Value → Option Nat
  | .num n => n.nat?
  | _ => none

/-- The double of a value. -/
def double? : Value → Option Double
  | .num n => some n.toDouble
  | _ => none

/-- A natural argument with a default value. -/
def Named.nat? (args : Named) (name : String) (default : Nat) : Option Nat :=
  match args.find? name with
  | none => some default
  | some v => Template.nat? v

/-- A signed word. -/
def word? : Value → Option Int
  | .num n => n.signed?
  | _ => none

/-- A truth-value argument with a default value. -/
def Named.flag? (args : Named) (name : String) (default : Bool) : Option Bool :=
  match args.find? name with
  | none => some default
  | some (.bool b) => some b
  | some _ => none

namespace Filter

/-- A filter of strings. -/
def ofText (f : List Char → List Char) : Filter := fun v _ =>
  v.str?.map fun s => .str (String.ofList (f s.toList))

/-! ### Strings -/

/-- Drop a text at the front as often as it stands there. -/
def dropStarts (part : List Char) : (fuel : Nat) → List Char → List Char
  | 0, cs => cs
  | fuel + 1, cs =>
    if part.isEmpty then cs
    else
      match dropStart? part cs with
      | some rest => dropStarts part fuel rest
      | none => cs

/-- A separator as it is meant: literals have no escapes, so a backslash and a letter stand for
a line break or a tab. -/
def unescapeBreaks (cs : List Char) : List Char :=
  replaceAll ['\\', 't'] ['\t'] (replaceAll ['\\', 'n'] ['\n'] cs)

/-- Drop a text at one of the ends as often as it stands there. -/
def trimMatches (atStart : Bool) : Filter := fun v args =>
  v.str?.bind fun s => (args.needText? "pat").map fun pat =>
    let cs := s.toList
    let part := unescapeBreaks pat.toList
    .str (String.ofList (if atStart then dropStarts part cs.length cs
      else (dropStarts part.reverse cs.length cs.reverse).reverse))

/-- Cut a text to a number of characters and mark the cut. -/
def truncate : Filter := fun v args =>
  v.str?.bind fun s => (args.nat? "length" 255).bind fun length =>
    (args.text? "end" "…").map fun mark =>
      let cs := s.toList
      .str (if cs.length ≤ length then s else String.ofList (cs.take length) ++ mark)

/-- The words of a text. -/
def words (cs : List Char) : List (List Char) :=
  (splitBy isBlank cs).filter (!·.isEmpty)

/-- Replace a text by another one. -/
def replace : Filter := fun v args =>
  v.str?.bind fun s => (args.needText? "from").bind fun old =>
    (args.needText? "to").map fun new => .str (replaceString s old new)

/-- A character of a word: letters and digits of any script, and the underscore. -/
def isWordChar (c : Char) : Bool :=
  isIdentChar c || (127 < c.toNat && !isBlank c && (isCased c || 0x2E80 ≤ c.toNat))

/-- A character of a titled word. -/
def isTitleChar (c : Char) : Bool :=
  isWordChar c || c == '\''

/-- Drop apostrophes at the end that no word character follows. -/
def splitTail (run rest : List Char) : List Char × List Char :=
  let tail := (run.reverse.takeWhile (· == '\'')).length
  (run.take (run.length - tail), run.drop (run.length - tail) ++ rest)

/-- Upper case at the start of each word and lower case inside. -/
def title (afterWord : Bool) : (fuel : Nat) → List Char → List Char
  | 0, cs => cs
  | _ + 1, [] => []
  | fuel + 1, c :: cs =>
    if isTitleChar c && (isWordChar c != afterWord) then
      let run := c :: cs.takeWhile isTitleChar
      let rest := cs.dropWhile isTitleChar
      match splitTail run rest with
      | (first :: inner, rest) => upperChar first ++ lower inner ++ title true fuel rest
      | ([], _) => c :: title (isWordChar c) fuel cs
    else c :: title (isWordChar c) fuel cs

/-- The lines of a text; a line break at the end starts no further line. -/
def lines (cs : List Char) : List (List Char) :=
  let pieces := splitBy (· == '\n') cs
  let pieces := if pieces.getLast? = some [] then pieces.dropLast else pieces
  pieces.map fun line => (dropTail? ['\r'] line).getD line

/-- Put a text in front of the lines after the first, and of the others if asked to. -/
def indent : Filter := fun v args =>
  v.str?.bind fun s => (args.text? "prefix" "    ").bind fun mark =>
    (args.flag? "first" false).bind fun first => (args.flag? "blank" false).map fun blank =>
      let mark := mark.toList
      match lines s.toList with
      | [] => .str ""
      | line :: rest =>
        let head := (if first then mark else []) ++ line
        let tail := rest.flatMap fun line =>
          '\n' :: ((if blank || !(trimStart line).isEmpty then mark else []) ++ line)
        .str (String.ofList (head ++ tail))

/-- What follows a comment that ends on its own line. -/
def dropComment? (cs : List Char) : Option (List Char) :=
  (dropStart? "!--".toList cs).bind go
where
  /-- Behind the opening mark. -/
  go : List Char → Option (List Char)
    | '-' :: '-' :: '>' :: rest => some rest
    | c :: rest => if c = '\n' then none else go rest
    | [] => none

/-- Drop comments and everything between angle brackets. -/
def stripTags : (fuel : Nat) → List Char → List Char
  | 0, cs => cs
  | _ + 1, [] => []
  | fuel + 1, c :: cs =>
    if c = '<' then
      match dropComment? cs, splitAtFirst? (· == '>') cs with
      | some rest, _ => stripTags fuel rest
      | none, some (_, rest) => stripTags fuel rest
      | none, none => c :: stripTags fuel cs
    else c :: stripTags fuel cs

/-- Drop the blanks between angle brackets. -/
def spaceless : (fuel : Nat) → List Char → List Char
  | 0, cs => cs
  | _ + 1, [] => []
  | fuel + 1, c :: cs =>
    if c = '>' then
      match trimStart cs with
      | '<' :: rest => '>' :: spaceless fuel ('<' :: rest)
      | _ => c :: spaceless fuel cs
    else c :: spaceless fuel cs

/-- Percent signs and upper-case digits for the bytes that are not `safe`. -/
def percent (safe : Char → Bool) (cs : List Char) : List Char :=
  cs.flatMap fun c =>
    if safe c then [c]
    else (Utf8.encode [c]).flatMap fun b =>
      '%' :: (Nat.toDigits 16 (b.toNat / 16) ++ Nat.toDigits 16 (b.toNat % 16)).map Char.toUpper

/-- Characters that stay in an encoded path. -/
def staysInPath (c : Char) : Bool :=
  c.isAlphanum || "-._~/%".toList.contains c

/-- Replace the characters that have a meaning in markup. -/
def escapeMarkup (apostrophe : String) (slash : Bool) (cs : List Char) : List Char :=
  cs.flatMap fun c =>
    if c = '&' then "&amp;".toList
    else if c = '<' then "&lt;".toList
    else if c = '>' then "&gt;".toList
    else if c = '"' then "&quot;".toList
    else if c = '\'' then apostrophe.toList
    else if c = '/' ∧ slash then "&#x2F;".toList
    else [c]

/-- A backslash in front of quotes and backslashes. -/
def addSlashes (cs : List Char) : List Char :=
  cs.flatMap fun c => if c = '\\' ∨ c = '"' ∨ c = '\'' then ['\\', c] else [c]

/-- Lower-case letters and digits with single dashes between them. -/
def slug (cs : List Char) : List Char :=
  let marks := (lower cs).map fun c => if c.isAlphanum then c else ' '
  joinWith ['-'] (words marks)

/-- Split a text into a list. -/
def split : Filter := fun v args =>
  v.str?.bind fun s => (args.needText? "pat").map fun pat =>
    let pieces := splitOn (unescapeBreaks pat.toList) s.toList
    .arr (pieces.map fun piece => .str (String.ofList piece))

/-- Read an integer, with a default value for what is none. -/
def toInt : Filter := fun v args =>
  (word? ((args.find? "default").getD (.nat 0))).bind fun default =>
  let default : Value := .int default
  (args.nat? "base" 10).bind fun base =>
    match v with
    | .str s =>
      let cs := trim s.toList
      let body := match cs with
        | '0' :: 'x' :: rest => if base = 16 then rest else cs
        | '0' :: 'o' :: rest => if base = 8 then rest else cs
        | '0' :: 'b' :: rest => if base = 2 then rest else cs
        | _ => cs
      match Decimal.readInt? base body with
      | some i => some (if -(Int.pow 2 63) ≤ i ∧ i < Int.pow 2 63 then .int i else default)
      | none =>
        match if body.contains '.' then Decimal.readDouble? body else none with
        | some d => some (.int (d.clampInt (-(Int.pow 2 63)) (Int.pow 2 63 - 1)))
        | none => some default
    | .num n =>
      match n.signed? with
      | some i => some (.int i)
      | none => some (.int (n.toDouble.clampInt (-(Int.pow 2 63)) (Int.pow 2 63 - 1)))
    | _ => none

/-- Read a double, with a default value for what is none. -/
def toDouble : Filter := fun v args =>
  (double? ((args.find? "default").getD (.nat 0))).bind fun default =>
    match v with
    | .str s =>
      let d := (Decimal.readDouble? (trim s.toList)).getD default
      some (if d.isFinite then .num (.double d) else .null)
    | .num n => some (.num (.double n.toDouble))
    | _ => none

/-! ### Lists -/

/-- The item at an index, or an empty string. -/
def nth : Filter := fun v args =>
  v.items?.bind fun items =>
    if items.isEmpty then some (.str "")
    else ((args.find? "n").bind nat?).map fun n => items[n]?.getD (.str "")

/-- The kinds of values that can be sorted and compared with their like. -/
inductive SortKey where
  | truth (b : Bool)
  | number (d : Double)
  | text (s : String)
  | length (n : Nat)

/-- The sort key of a value. -/
def sortKey? : Value → Option SortKey
  | .bool b => some (.truth b)
  | .num n => some (.number n.toDouble)
  | .str s => some (.text s)
  | .arr items => some (.length items.length)
  | _ => none

/-- Whether two keys are of one kind. -/
def SortKey.alike : SortKey → SortKey → Bool
  | .truth _, .truth _ => true
  | .number _, .number _ => true
  | .text _, .text _ => true
  | .length _, .length _ => true
  | _, _ => false

/-- The order of keys of one kind. -/
def SortKey.le : SortKey → SortKey → Bool
  | .truth a, .truth b => !a || b
  | .number a, .number b => Double.le a b
  | .text a, .text b => a == b || a < b
  | .length a, .length b => a ≤ b
  | _, _ => true

/-- The items in the order of an attribute; equal ones keep their order. -/
def sort : Filter := fun v args =>
  v.items?.bind fun items => (args.text? "attribute" "").bind fun field =>
    let keyed? := items.mapM (m := Option) fun item =>
      ((followPath? item field.toList).bind sortKey?).map fun key => (key, item)
    keyed?.bind fun keyed =>
      match keyed with
      | [] => some (.arr [])
      | (first, _) :: _ =>
        if keyed.all fun (key, _) => first.alike key then
          some (.arr ((keyed.mergeSort fun a b => a.1.le b.1).map Prod.snd))
        else none

/-- What makes an item the same as another one. -/
def uniqueKey? (caseSensitive : Bool) : Value → Option Value
  | .bool b => some (.bool b)
  | .num (.int i) => some (.num (.int i))
  | .str s => some (.str (if caseSensitive then s else String.ofList (lower s.toList)))
  | _ => none

/-- Whether two values are of one kind. -/
def sameKind : Value → Value → Bool
  | .null, .null => true
  | .bool _, .bool _ => true
  | .num _, .num _ => true
  | .str _, .str _ => true
  | .arr _, .arr _ => true
  | .obj _, .obj _ => true
  | _, _ => false

/-- Keep the items whose key is not among those seen. -/
def keepNew (first : Value) (caseSensitive : Bool) (field : List Char) (seen : List Value) :
    List Value → Option (List Value)
  | [] => some []
  | item :: rest =>
    match followPath? item field with
    | none => keepNew first caseSensitive field seen rest
    | some v =>
      if sameKind first v then
        (uniqueKey? caseSensitive v).bind fun key =>
          if seen.any (Value.same key) then keepNew first caseSensitive field seen rest
          else (keepNew first caseSensitive field (key :: seen) rest).map (item :: ·)
      else none

/-- The first of the items with the same attribute. -/
def unique : Filter := fun v args =>
  v.items?.bind fun items => (args.flag? "case_sensitive" false).bind fun caseSensitive =>
    (args.text? "attribute" "").bind fun field =>
      match items with
      | [] => some (.arr [])
      | first :: _ =>
        (followPath? first field.toList).bind fun key =>
          (uniqueKey? caseSensitive key).bind fun _ =>
            (keepNew key caseSensitive field.toList [] items).map .arr

/-- The items by the text of an attribute. -/
def groupBy : Filter := fun v args =>
  v.items?.bind fun items =>
    if items.isEmpty then some (.obj [])
    else
      (args.needText? "attribute").map fun field =>
        let add (groups : Fields) (item : Value) : Fields :=
          match followPath? item field.toList with
          | none => groups
          | some .null => groups
          | some key =>
            let name := key.str?.getD key.text
            match Fields.get? name groups with
            | some (.arr members) => groups.insert name (.arr (members ++ [item]))
            | _ => groups.insert name (.arr [item])
        .obj (items.foldl add [])

/-- The items whose attribute has a value, or is there at all. -/
def select : Filter := fun v args =>
  v.items?.bind fun items =>
    if items.isEmpty then some (.arr [])
    else
      (args.needText? "attribute").map fun field =>
        let wanted := (args.find? "value").getD .null
        .arr (items.filter fun item =>
          let found := (followPath? item field.toList).getD .null
          match wanted with
          | .null => !Value.same found .null
          | wanted => Value.same found wanted)

/-- The attributes of the items that have it. -/
def map : Filter := fun v args =>
  v.items?.bind fun items =>
    if items.isEmpty then some (.arr [])
    else
      (args.needText? "attribute").map fun field =>
        .arr (items.filterMap fun item =>
          match followPath? item field.toList with
          | some .null => none
          | found => found)

/-- An index that may count from the end. -/
def sliceIndex (length : Nat) (d : Double) : Nat :=
  let i := if d.isNegative then Double.add (Double.ofInt length) d else d
  (i.clampInt 0 (Int.pow 2 63)).toNat

/-- A part of a list. -/
def slice : Filter := fun v args =>
  v.items?.bind fun items =>
    let bound (name : String) (default : Nat) : Option Nat :=
      match args.find? name with
      | none => some default
      | some v => (double? v).map (sliceIndex items.length)
    if items.isEmpty then some (.arr [])
    else
      (bound "start" 0).bind fun start => (bound "end" items.length).map fun stop =>
        let stop := min stop items.length
        .arr (if stop ≤ start then [] else (items.take stop).drop start)

/-- A list followed by the items of another one, or by a value. -/
def concat : Filter := fun v args =>
  v.items?.bind fun items => (args.find? "with").map fun more =>
    match more with
    | .arr more => .arr (items ++ more)
    | more => .arr (items ++ [more])

/-- The items of a list as texts with a separator. -/
def join : Filter := fun v args =>
  v.items?.bind fun items => (args.text? "sep" "").map fun sep =>
    .str (String.ofList (joinWith (unescapeBreaks sep.toList) (items.map (·.shown.toList))))

/-! ### Numbers -/

/-- The magnitude of a number. -/
def abs : Filter := fun v _ =>
  match v with
  | .num (.int i) => some (.int i.natAbs)
  | .num (.double d) => some (.num (.double d.abs))
  | _ => none

/-- One text for one and another one for other counts. -/
def pluralize : Filter := fun v args =>
  (double? v).bind fun d => (args.text? "plural" "s").bind fun plural =>
    (args.text? "singular" "").map fun singular =>
      let one := Double.ofInt 1
      let epsilon := Double.ofRatio false 1 (Nat.pow 2 52)
      .str (if Double.lt epsilon ((d.abs.sub one).abs) then plural else singular)

/-- Round to a number of places. -/
def round : Filter := fun v args =>
  (double? v).bind fun d => (args.text? "method" "common").bind fun method =>
    (word? ((args.find? "precision").getD (.nat 0))).bind fun precision =>
      let scale := Double.ofDecimal false 1 precision
      let scaled := scale.mul d
      let rounded? :=
        if method = "common" then some scaled.round
        else if method = "ceil" then some scaled.ceil
        else if method = "floor" then some scaled.floor
        else none
      rounded?.map fun r =>
        let result := r.div scale
        if result.isFinite then .num (.double result) else .null

/-! ### Any values -/

/-- The number of items, entries or characters. -/
def length : Filter := fun v _ =>
  match v with
  | .arr items => some (.nat items.length)
  | .obj fields => some (.nat fields.length)
  | .str s => some (.nat s.length)
  | _ => none

/-- A list or a text backwards. -/
def reverse : Filter := fun v _ =>
  match v with
  | .arr items => some (.arr items.reverse)
  | .str s => some (.str (String.ofList s.toList.reverse))
  | _ => none

/-- The entry of a record. -/
def get : Filter := fun v args =>
  v.fields?.bind fun fields => (args.needText? "key").bind fun key =>
    match Fields.get? key fields with
    | some found => some found
    | none => args.find? "default"

/-- The document form of a value. -/
def encode : Filter := fun v args =>
  (args.flag? "pretty" false).map fun pretty => .str (if pretty then v.pretty else v.text)

/-- The filters of the template language. -/
def table : List (String × Filter) :=
  [ ("upper", ofText upper),
    ("lower", ofText lower),
    ("trim", ofText trim),
    ("trim_start", ofText trimStart),
    ("trim_end", ofText trimEnd),
    ("trim_start_matches", trimMatches true),
    ("trim_end_matches", trimMatches false),
    ("truncate", truncate),
    ("wordcount", fun v _ => v.str?.map fun s => .nat (words s.toList).length),
    ("replace", replace),
    ("capitalize", ofText capitalize),
    ("addslashes", ofText addSlashes),
    ("slugify", ofText slug),
    ("title", ofText fun cs => title false cs.length cs),
    ("linebreaksbr", ofText fun cs =>
      replaceAll ['\n'] "<br>".toList (replaceAll ['\r', '\n'] "<br>".toList cs)),
    ("indent", indent),
    ("striptags", ofText fun cs => stripTags cs.length cs),
    ("spaceless", ofText fun cs => spaceless cs.length cs),
    ("urlencode", ofText (percent staysInPath)),
    ("urlencode_strict", ofText (percent Char.isAlphanum)),
    ("escape", ofText (escapeMarkup "&#x27;" true)),
    ("escape_xml", ofText (escapeMarkup "&apos;" false)),
    ("split", split),
    ("int", toInt),
    ("float", toDouble),
    ("first", fun v _ => v.items?.map fun items => items.head?.getD (.str "")),
    ("last", fun v _ => v.items?.map fun items => items.getLast?.getD (.str "")),
    ("nth", nth),
    ("join", join),
    ("sort", sort),
    ("unique", unique),
    ("group_by", groupBy),
    ("filter", select),
    ("map", map),
    ("slice", slice),
    ("concat", concat),
    ("abs", abs),
    ("pluralize", pluralize),
    ("round", round),
    ("length", length),
    ("reverse", reverse),
    ("get", get),
    ("json_encode", encode),
    ("as_str", fun v _ => some (.str v.shown)) ]

/-- A filter of the template language by name. -/
def builtin? (name : String) : Option Filter :=
  table.lookup name

end Filter

/-! ### Tests -/

/-- A test of a value that may be missing; it may refuse its input. -/
abbrev Check := Option Value → List Value → Option Bool

namespace Check

/-- A test without arguments of a value that has to be there. -/
def ofValue (f : Value → Option Bool) : Check := fun v args =>
  if args.isEmpty then v.bind f else none

/-- A test with one string argument of a string. -/
def ofTexts (f : (text part : List Char) → Bool) : Check := fun v args =>
  match v, args with
  | some (.str s), [.str part] => some (f s.toList part.toList)
  | _, _ => none

/-- Whether a number is a multiple of another one. -/
def divides (d n : Double) : Bool :=
  (Double.rem n d).isZero

/-- The tests of the template language. -/
def table : List (String × Check) :=
  [ ("defined", fun v args => if args.isEmpty then some v.isSome else none),
    ("undefined", fun v args => if args.isEmpty then some v.isNone else none),
    ("odd", ofValue fun v => (double? v).map fun d => !divides (Double.ofInt 2) d),
    ("even", ofValue fun v => (double? v).map fun d => divides (Double.ofInt 2) d),
    ("number", ofValue fun v => some (double? v).isSome),
    ("string", ofValue fun v => some v.str?.isSome),
    ("iterable", ofValue fun v => some (v.items?.isSome || v.fields?.isSome)),
    ("object", ofValue fun v => some v.fields?.isSome),
    ("divisibleby", fun v args =>
      match args with
      | [arg] => (v.bind double?).bind fun n => (double? arg).map fun d => divides d n
      | _ => none),
    ("starting_with", ofTexts fun s part => part.isPrefixOf s),
    ("ending_with", ofTexts fun s part => part.isSuffixOf s),
    ("containing", fun v args =>
      match v, args with
      | some (.str s), [.str part] => some (contains part.toList s.toList)
      | some (.arr items), [part] => some (items.any (Value.same part))
      | some (.obj fields), [.str key] => some (Fields.has key fields)
      | _, _ => none) ]

/-- A test of the template language by name. -/
def builtin? (name : String) : Option Check :=
  table.lookup name

end Check

/-! ### Functions -/

/-- The numbers from `start` up to `stop` in steps. -/
def countFrom (step : Nat) : (fuel : Nat) → (start stop : Nat) → List Value
  | 0, _, _ => []
  | fuel + 1, start, stop =>
    if start < stop then .nat start :: countFrom step fuel (start + step) stop else []

/-- A range of numbers. -/
def range (args : Named) : Option Value :=
  (args.nat? "start" 0).bind fun start => ((args.find? "end").bind nat?).bind fun stop =>
    (args.nat? "step_by" 1).bind fun step =>
      if stop < start ∨ step = 0 then none else some (.arr (countFrom step stop start stop))

/-- The functions of the template language; the environment of the program is not visible. -/
def callBuiltin? (name : String) (args : Named) : Option Value :=
  if name = "range" then range args
  else if name = "get_env" then (args.needText? "name").bind fun _ => args.find? "default"
  else none

end Template

end Runbook
