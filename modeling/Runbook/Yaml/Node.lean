import Runbook.Yaml.Scan
/-!
# Trees of YAML documents

* `Node` — scalars, sequences and mappings with their tags, and references to anchored nodes;
* `Tree` — what a reader knows: the tokens that are left, the tag handles, and the anchors;
* `Document` — the root of a document and its anchored nodes;
* `Document.ofChars?` — the only document of a stream.

An anchor's number is the count of different names before it, and a reference stands for the last
node that got its number.
-/

namespace Runbook.Yaml

/-- A node. -/
inductive Node where
  | alias (id : Nat)
  | scalar (tag : Option (List Char)) (style : Style) (text : List Char)
  | sequence (tag : Option (List Char)) (items : List Node)
  | mapping (tag : Option (List Char)) (entries : List (Node × Node))

instance : Inhabited Node := ⟨.scalar none .plain []⟩

/-- The node of what is left out. -/
def Node.empty : Node := .scalar none .plain []

/-- What a reader knows: tokens, tag handles, the numbers of the names of anchors, the anchored
nodes that were started, the latest first, and those that are complete. -/
structure Tree where
  tokens : List Token
  handles : List (List Char × List Char) := []
  names : List (List Char × Nat) := []
  started : List (Nat × Nat) := []
  finished : List (Nat × Node) := []

/-- A node and what is known behind it. -/
abbrev ReadNode := Option (Node × Tree)

namespace Tree

/-- The next token. -/
def peek (t : Tree) : Token :=
  t.tokens.head?.getD .streamEnd

/-- Behind the next token. -/
def skip (t : Tree) : Tree :=
  { t with tokens := t.tokens.drop 1 }

/-- Behind a token that has to come. -/
def expect (wanted : Token) (t : Tree) : Option Tree :=
  if t.peek = wanted then some t.skip else none

/-- Number an anchor where its node starts. -/
def startAnchor (name : List Char) (t : Tree) : Nat × Tree :=
  let id := t.names.length
  let names := (name, id) :: t.names.filter fun n => n.1 != name
  let place := t.started.length
  (place, { t with names, started := (id, place) :: t.started })

/-- Keep an anchored node. -/
def finishAnchor (place : Option Nat) (node : Node) (t : Tree) : Tree :=
  match place with
  | some place => { t with finished := (place, node) :: t.finished }
  | none => t

/-- A tag in full. -/
def fullTag? (handle suffix : List Char) (t : Tree) : Option (List Char) :=
  if handle.isEmpty then some suffix
  else
    match t.handles.lookup handle with
    | some start => some (start ++ suffix)
    | none =>
      if handle = ['!'] then some ('!' :: suffix)
      else if handle = ['!', '!'] then some ("tag:yaml.org,2002:".toList ++ suffix)
      else none

end Tree

/-- The anchor and the tag before a node. -/
structure Properties where
  anchor : Option Nat := none
  tag : Option (List Char) := none

/-- An anchor, if there is one. -/
def readAnchor (p : Properties) (t : Tree) : Properties × Tree :=
  match t.peek with
  | .anchor name =>
    let (place, t) := t.skip.startAnchor name
    ({ p with anchor := some place }, t)
  | _ => (p, t)

/-- A tag, if there is one. -/
def readTagOf (p : Properties) (t : Tree) : Option (Properties × Tree) :=
  match t.peek with
  | .tag handle suffix =>
    (t.fullTag? handle suffix).map fun tag => ({ p with tag := some tag }, t.skip)
  | _ => some (p, t)

/-- An anchor and a tag in either order. -/
def readProperties (t : Tree) : Option (Properties × Tree) :=
  match t.peek with
  | .anchor _ =>
    let (p, t) := readAnchor {} t
    readTagOf p t
  | _ => (readTagOf {} t).map fun (p, t) => if p.tag.isSome then readAnchor p t else (p, t)

mutual

/-- A node; block collections only where `block` says so, and a sequence without indentation only
where `indentless` says so. -/
def readNode : (fuel : Nat) → (block indentless : Bool) → Tree → ReadNode
  | 0, _, _, _ => none
  | fuel + 1, block, indentless, t =>
    match t.peek with
    | .alias name => (t.names.lookup name).map fun id => (.alias id, t.skip)
    | _ =>
      (readProperties t).bind fun (p, t) =>
        let content : ReadNode :=
          match t.peek with
          | .blockEntry =>
            if indentless then (readEntries fuel t).map fun (items, t) => (.sequence p.tag items, t)
            else absent p t
          | .scalar style text => some (.scalar p.tag style text, t.skip)
          | .flowSequenceStart =>
            (readFlowItems fuel true t.skip).map fun (items, t) => (.sequence p.tag items, t)
          | .flowMappingStart =>
            (readFlowEntries fuel true t.skip).map fun (entries, t) => (.mapping p.tag entries, t)
          | .blockSequenceStart =>
            if block then
              (readItems fuel t.skip).map fun (items, t) => (.sequence p.tag items, t)
            else absent p t
          | .blockMappingStart =>
            if block then
              (readPairs fuel t.skip).map fun (entries, t) => (.mapping p.tag entries, t)
            else absent p t
          | _ => absent p t
        content.map fun (node, t) => (node, t.finishAnchor p.anchor node)
where
  /-- A node that is left out behind its anchor or tag. -/
  absent (p : Properties) (t : Tree) : ReadNode :=
    if p.anchor.isSome || p.tag.isSome then some (.scalar p.tag .plain [], t) else none

/-- A node that may be left out before certain tokens. -/
def readOptional : (fuel : Nat) → (block indentless : Bool) → (ends : List Token) → Tree → ReadNode
  | 0, _, _, _, _ => none
  | fuel + 1, block, indentless, ends, t =>
    if ends.contains t.peek then some (.empty, t) else readNode fuel block indentless t

/-- The items of a block sequence up to its end. -/
def readItems : (fuel : Nat) → Tree → Option (List Node × Tree)
  | 0, _ => none
  | fuel + 1, t =>
    match t.peek with
    | .blockEntry =>
      (readOptional fuel true false [.blockEntry, .blockEnd] t.skip).bind fun (item, t) =>
        (readItems fuel t).map fun (items, t) => (item :: items, t)
    | .blockEnd => some ([], t.skip)
    | _ => none

/-- The items of a sequence without indentation. -/
def readEntries : (fuel : Nat) → Tree → Option (List Node × Tree)
  | 0, _ => none
  | fuel + 1, t =>
    match t.peek with
    | .blockEntry =>
      (readOptional fuel true false [.blockEntry, .key, .value, .blockEnd] t.skip).bind
        fun (item, t) => (readEntries fuel t).map fun (items, t) => (item :: items, t)
    | _ => some ([], t)

/-- The entries of a block mapping up to its end. -/
def readPairs : (fuel : Nat) → Tree → Option (List (Node × Node) × Tree)
  | 0, _ => none
  | fuel + 1, t =>
    match t.peek with
    | .key =>
      (readOptional fuel true true [.key, .value, .blockEnd] t.skip).bind fun (key, t) =>
        (readPairValue fuel t).bind fun (value, t) =>
          (readPairs fuel t).map fun (entries, t) => ((key, value) :: entries, t)
    | .blockEnd => some ([], t.skip)
    | _ => none

/-- The value of a block mapping's entry. -/
def readPairValue : (fuel : Nat) → Tree → ReadNode
  | 0, _ => none
  | fuel + 1, t =>
    match t.peek with
    | .value => readOptional fuel true true [.key, .value, .blockEnd] t.skip
    | _ => some (.empty, t)

/-- The items of a flow sequence up to its end. -/
def readFlowItems : (fuel : Nat) → (first : Bool) → Tree → Option (List Node × Tree)
  | 0, _, _ => none
  | fuel + 1, first, t =>
    if t.peek = .flowSequenceEnd then some ([], t.skip)
    else
      (if first then some t else t.expect .flowEntry).bind fun t =>
        match t.peek with
        | .flowSequenceEnd => some ([], t.skip)
        | .key =>
          (readFlowPair fuel t.skip).bind fun (item, t) =>
            (readFlowItems fuel false t).map fun (items, t) => (item :: items, t)
        | _ =>
          (readNode fuel false false t).bind fun (item, t) =>
            (readFlowItems fuel false t).map fun (items, t) => (item :: items, t)

/-- A mapping of one entry inside a flow sequence. -/
def readFlowPair : (fuel : Nat) → Tree → ReadNode
  | 0, _ => none
  | fuel + 1, t =>
    let key : ReadNode :=
      if [Token.value, .flowEntry, .flowSequenceEnd].contains t.peek then some (.empty, t.skip)
      else readNode fuel false false t
    key.bind fun (key, t) =>
      match t.peek with
      | .value =>
        (readOptional fuel false false [.flowEntry, .flowSequenceEnd] t.skip).map
          fun (value, t) => (.mapping none [(key, value)], t)
      | _ => some (.mapping none [(key, .empty)], t)

/-- The entries of a flow mapping up to its end. -/
def readFlowEntries : (fuel : Nat) → (first : Bool) → Tree → Option (List (Node × Node) × Tree)
  | 0, _, _ => none
  | fuel + 1, first, t =>
    if t.peek = .flowMappingEnd then some ([], t.skip)
    else
      (if first then some t else t.expect .flowEntry).bind fun t =>
        match t.peek with
        | .flowMappingEnd => some ([], t.skip)
        | .key =>
          (readOptional fuel false false [.value, .flowEntry, .flowMappingEnd] t.skip).bind
            fun (key, t) =>
              (readFlowValue fuel t).bind fun (value, t) =>
                (readFlowEntries fuel false t).map fun (entries, t) => ((key, value) :: entries, t)
        | _ =>
          (readNode fuel false false t).bind fun (key, t) =>
            (readFlowEntries fuel false t).map fun (entries, t) => ((key, .empty) :: entries, t)

/-- The value of a flow mapping's entry. -/
def readFlowValue : (fuel : Nat) → Tree → ReadNode
  | 0, _ => none
  | fuel + 1, t =>
    match t.peek with
    | .value => readOptional fuel false false [.flowEntry, .flowMappingEnd] t.skip
    | _ => some (.empty, t)

end

/-! ### Documents -/

/-- A document: its root, unless the stream is empty, and its anchored nodes by their numbers. -/
structure Document where
  root : Option Node
  anchored : List (Nat × Node) := []

/-- The anchored nodes by their numbers, the latest first. -/
def Tree.anchored (t : Tree) : List (Nat × Node) :=
  t.started.filterMap fun (id, place) => (t.finished.lookup place).map fun node => (id, node)

/-- The directives before a document: at most one version, which has to be known, and tag handles
that do not repeat. -/
def readDirectives : (fuel : Nat) → (hasVersion : Bool) → Tree → Option Tree
  | 0, _, _ => none
  | fuel + 1, hasVersion, t =>
    match t.peek with
    | .version major minor =>
      if hasVersion || major != 1 || (minor != 1 && minor != 2) then none
      else readDirectives fuel true t.skip
    | .tagDirective handle start =>
      if (t.handles.lookup handle).isSome then none
      else readDirectives fuel hasVersion { t.skip with handles := (handle, start) :: t.handles }
    | _ => some t

/-- Behind the marks of the ends of documents. -/
def skipEnds (t : Tree) : Tree :=
  { t with tokens := t.tokens.dropWhile (· == .documentEnd) }

/-- Whether a directive or the start of a document comes next. -/
def startsExplicitly (t : Tree) : Bool :=
  match t.peek with
  | .version _ _ | .tagDirective _ _ | .documentStart => true
  | _ => false

/-- The content of a document. -/
def readRoot (t : Tree) : ReadNode :=
  match t.peek with
  | .version _ _ | .tagDirective _ _ | .documentStart | .documentEnd | .streamEnd =>
    some (.empty, t)
  | _ => readNode (8 * t.tokens.length + 8) true false t

/-- The only document of a token list. -/
def Document.ofTokens? (tokens : List Token) : Option Document :=
  let t : Tree := { tokens }
  if t.peek = .streamEnd then some { root := none }
  else
    let started : Option Tree :=
      if startsExplicitly t then
        (readDirectives (tokens.length + 1) false t).bind (·.expect .documentStart)
      else some t
    started.bind fun t =>
      let content : ReadNode :=
        if startsExplicitly { tokens } then readRoot t
        else readNode (8 * t.tokens.length + 8) true false t
      content.bind fun (root, t) =>
        if (skipEnds t).peek = .streamEnd then some { root := some root, anchored := t.anchored }
        else none

/-- The only document of a text. -/
def Document.ofChars? (cs : List Char) : Option Document :=
  (scan? cs).bind Document.ofTokens?

end Runbook.Yaml
