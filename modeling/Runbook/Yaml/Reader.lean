import Runbook.Value.Basic
import Runbook.Yaml.Node
/-!
# Values of YAML documents

* `scalarValue?` — the value of a scalar: by its tag, or by its text if it has neither a tag nor
  quotes;
* `Node.value?` — the value of a node, in which references are replaced by what they stand for;
* `Value.ofYaml?` — the value of a text.

Keys are the texts of scalars. A tag that the format does not define is refused, and so are
integers beyond 64 bits and documents that nest too deep or repeat too much.
-/

namespace Runbook.Yaml

/-! ### Scalars -/

/-- A null. -/
def isNull (cs : List Char) : Bool :=
  ["null", "Null", "NULL", "~"].contains (String.ofList cs)

/-- A truth value. -/
def readBool? (cs : List Char) : Option Bool :=
  [("true", true), ("True", true), ("TRUE", true), ("false", false), ("False", false),
    ("FALSE", false)].lookup (String.ofList cs)

/-- Digits behind a leading zero, which are no number. -/
def isPadded (cs : List Char) : Bool :=
  let digits := match cs with
    | '-' :: rest => rest
    | '+' :: rest => rest
    | cs => cs
  match digits with
  | '0' :: c :: rest => (c :: rest).all Char.isDigit
  | _ => false

/-- The base of an integer by its first characters. -/
def bases : List (List Char × Nat) :=
  [(['0', 'x'], 16), (['0', 'o'], 8), (['0', 'b'], 2)]

/-- The integer behind the first characters that tell its base. -/
def readBased? (cs : List Char) : Option Nat :=
  bases.findSome? fun (start, base) =>
    (Text.dropStart? start cs).bind (Decimal.natOfDigits? base)

/-- An integer. -/
def readInteger? (cs : List Char) : Option Int :=
  let (negative, digits) := match cs with
    | '-' :: rest => (true, rest)
    | '+' :: rest => (false, rest)
    | cs => (false, cs)
  let magnitude : Option Nat :=
    match readBased? digits with
    | some n => some n
    | none => if isPadded cs then none else Decimal.natOfDigits? 10 digits
  magnitude.map fun n => if negative then -(n : Int) else n

/-- A double, which has to be finite unless it is written as infinite or as no number. -/
def readDouble? (cs : List Char) : Option Double :=
  let s := String.ofList cs
  if [".inf", ".Inf", ".INF", "+.inf", "+.Inf", "+.INF"].contains s then some Double.infinity
  else if ["-.inf", "-.Inf", "-.INF"].contains s then some Double.negInfinity
  else if [".nan", ".NaN", ".NAN"].contains s then some Double.nan
  else
    let unsigned := match cs with
      | '+' :: rest => if rest.head?.any fun c => c == '+' || c == '-' then [] else rest
      | cs => cs
    (Decimal.readDouble? unsigned).filter Double.isFinite

/-- An integer as a value; none is a value beyond 64 bits. -/
def integerValue? (i : Int) : Option Value :=
  if Number.minInt ≤ i ∧ i < Number.unsignedBound then some (.num (.int i)) else none

/-- A double as a value. -/
def doubleValue (d : Double) : Value :=
  if d.isFinite then .num (.double d) else .null

/-- The value of a scalar without tag and quotes. -/
def plainValue? (cs : List Char) : Option Value :=
  if cs.isEmpty || isNull cs then some .null
  else
    match readBool? cs with
    | some b => some (.bool b)
    | none =>
      match readInteger? cs with
      | some i => integerValue? i
      | none =>
        match if isPadded cs then none else readDouble? cs with
        | some d => some (doubleValue d)
        | none => some (.str (String.ofList cs))

/-- The tags that the format defines. -/
def coreTag (name : String) : List Char :=
  ("tag:yaml.org,2002:" ++ name).toList

/-- The value of a scalar. -/
def scalarValue? (tag : Option (List Char)) (style : Style) (cs : List Char) : Option Value :=
  match tag with
  | some tag =>
    if tag.head? = some '!' then none
    else if tag = coreTag "bool" then (readBool? cs).map .bool
    else if tag = coreTag "int" then (readInteger? cs).bind integerValue?
    else if tag = coreTag "float" then (readDouble? cs).map doubleValue
    else if tag = coreTag "null" then (if isNull cs then some .null else none)
    else some (.str (String.ofList cs))
  | none => if style = .plain then plainValue? cs else some (.str (String.ofList cs))

/-! ### Nodes -/

/-- Whether a tag is one of a single document. -/
def isLocalTag (tag : Option (List Char)) : Bool :=
  tag.any fun t => t.head? == some '!'

/-- The number of the parts of a node: scalars, references, and starts and ends of collections. -/
def Node.parts : Node → Nat
  | .alias _ => 1
  | .scalar _ _ _ => 1
  | .sequence _ items => 2 + partsOfAll items
  | .mapping _ entries => 2 + partsOfPairs entries
where
  /-- The parts of several nodes. -/
  partsOfAll : List Node → Nat
    | [] => 0
    | node :: rest => node.parts + partsOfAll rest
  /-- The parts of several entries. -/
  partsOfPairs : List (Node × Node) → Nat
    | [] => 0
    | (key, value) :: rest => key.parts + value.parts + partsOfPairs rest

/-- What references stand for, and how many may be followed. -/
structure References where
  anchored : List (Nat × Node)
  limit : Nat

/-- Follow a reference; `used` counts those followed so far. -/
def References.follow? (r : References) (used : Nat) : Node → Option (Node × Nat)
  | .alias id =>
    if r.limit ≤ used then none
    else
      match r.anchored.lookup id with
      | some (.alias _) => none
      | found => found.map fun node => (node, used + 1)
  | node => some (node, used)

/-- The text of a key. -/
def keyText? (r : References) (used : Nat) (node : Node) : Option (String × Nat) :=
  (r.follow? used node).bind fun (node, used) =>
    match node with
    | .scalar _ _ text => some (String.ofList text, used)
    | _ => none

/-- The value of a node; collections may nest to a depth. -/
def Node.value? (r : References) : (depth : Nat) → (used : Nat) → Node → Option (Value × Nat)
  | depth, used, node =>
    (r.follow? used node).bind fun (node, used) =>
      match node, depth with
      | .scalar tag style text, _ => (scalarValue? tag style text).map fun v => (v, used)
      | .sequence tag nodes, depth + 1 =>
        if isLocalTag tag then none
        else
          (items (Node.value? r depth) used nodes).map fun (vs, used) => (.arr vs, used)
      | .mapping tag pairs, depth + 1 =>
        if isLocalTag tag then none
        else
          (entries (Node.value? r depth) used pairs).map fun (kvs, used) =>
            (.obj (Fields.ofList kvs), used)
      | _, _ => none
where
  /-- The values of the items of a sequence. -/
  items (valueOf : Nat → Node → Option (Value × Nat)) (used : Nat) :
      List Node → Option (List Value × Nat)
    | [] => some ([], used)
    | node :: rest =>
      (valueOf used node).bind fun (v, used) =>
        (items valueOf used rest).map fun (vs, used) => (v :: vs, used)
  /-- The keys and values of the entries of a mapping. -/
  entries (valueOf : Nat → Node → Option (Value × Nat)) (used : Nat) :
      List (Node × Node) → Option (List (String × Value) × Nat)
    | [] => some ([], used)
    | (key, node) :: rest =>
      (keyText? r used key).bind fun (k, used) =>
        (valueOf used node).bind fun (v, used) =>
          (entries valueOf used rest).map fun (kvs, used) => ((k, v) :: kvs, used)

/-- The depth to which collections may nest. -/
def maxDepth : Nat := 128

/-- The value of a document; an empty one is null. -/
def Document.value? (d : Document) : Option Value :=
  match d.root with
  | none => some .null
  | some root =>
    (root.value? { anchored := d.anchored, limit := 100 * root.parts } maxDepth 0).map Prod.fst

end Runbook.Yaml

namespace Runbook

/-- The value of a YAML text. -/
def Value.ofYaml? (cs : List Char) : Option Value :=
  (Yaml.Document.ofChars? cs).bind Yaml.Document.value?

end Runbook
