import Runbook.Template.ExprReader
/-!
# Reading templates

The parts of a template over character lists:

* tags — delimiters with trim markers, keywords, and what stands between;
* `readNodes` — as many parts as can be read, in a place that allows loop control or not;
* `Template.ofChars?` — a whole text, with the trim markers applied (`trimNodes`).
-/

namespace Runbook.Template

open Runbook.Text

/-! ### Tags -/

/-- The start of a tag and whether it trims to the left. -/
def readTagStart (cs : List Char) : Read Bool :=
  match cs with
  | '{' :: '%' :: '-' :: rest => some (true, rest)
  | '{' :: '%' :: rest => some (false, rest)
  | _ => none

/-- The end of a tag behind optional blanks and whether it trims to the right. -/
def readTagEnd (cs : List Char) : Read Bool :=
  match skip cs with
  | '-' :: '%' :: '}' :: rest => some (true, rest)
  | '%' :: '}' :: rest => some (false, rest)
  | _ => none

/-- A keyword behind the start of a tag, and at least one blank. -/
def readTagWord (word : String) (cs : List Char) : Read Bool :=
  (readTagStart cs).bind fun (left, rest) =>
    (readSymbol word rest).bind fun rest =>
      match rest with
      | c :: _ => if isSpace c then some (left, skip rest) else none
      | [] => none

/-- A tag that is only a keyword. -/
def readBareTag (word : String) (cs : List Char) : Read Trim :=
  (readTagStart cs).bind fun (left, rest) =>
    (readSymbol word rest).bind fun rest =>
      (readTagEnd rest).map fun (right, rest) => ({ left, right }, rest)

/-- A tag that is a keyword and an optional name. -/
def readNamedEnd (word : String) (cs : List Char) : Read Trim :=
  (readTagStart cs).bind fun (left, rest) =>
    (readSymbol word rest).bind fun rest =>
      let rest := ((readIdent rest).map Prod.snd).getD rest
      (readTagEnd rest).map fun (right, rest) => ({ left, right }, rest)

/-- The end of a comment. -/
def readCommentEnd : List Char → Read Bool
  | '-' :: '#' :: '}' :: rest => some (true, rest)
  | '#' :: '}' :: rest => some (false, rest)
  | _ => none

/-- A comment, which is not empty, and its trim markers. -/
def readComment (cs : List Char) : Read Trim :=
  let started : Read Bool :=
    match cs with
    | '{' :: '#' :: '-' :: rest => some (true, rest)
    | '{' :: '#' :: rest => some (false, rest)
    | _ => none
  started.bind fun (left, rest) =>
    if (readCommentEnd rest).isSome then none
    else (close rest).map fun (right, rest) => ({ left, right }, rest)
where
  close : List Char → Read Bool
    | [] => none
    | c :: rest =>
      match readCommentEnd (c :: rest) with
      | some found => some found
      | none => close rest

/-- A shown value. -/
def readDisplay (cs : List Char) : Read Node :=
  let started : Read Bool :=
    match cs with
    | '{' :: '{' :: '-' :: rest => some (true, rest)
    | '{' :: '{' :: rest => some (false, rest)
    | _ => none
  started.bind fun (left, rest) =>
    (readValueExpr rest).bind fun (e, rest) =>
      match skip rest with
      | '-' :: '}' :: '}' :: rest => some (.display { left, right := true } e, rest)
      | '}' :: '}' :: rest => some (.display { left, right := false } e, rest)
      | _ => none

/-- An assignment. -/
def readAssign (word : String) (isGlobal : Bool) (cs : List Char) : Read Node :=
  (readTagWord word cs).bind fun (left, rest) =>
    (readIdent rest).bind fun (name, rest) =>
      (readSymbol "=" rest).bind fun rest =>
        (readValueExpr rest).bind fun (e, rest) =>
          (readTagEnd rest).map fun (right, rest) =>
            (.assign { left, right } isGlobal name e, rest)

/-- A string literal or a list of them, which name templates. -/
def readNames (cs : List Char) : Option (List Char) :=
  let cs := skip cs
  match readString cs with
  | some (_, rest) => some rest
  | none =>
    (readSymbol "[" cs).bind fun rest =>
      let one (cs : List Char) : Read (List Char) := readString (skip cs)
      let rest :=
        match one rest with
        | none => rest
        | some (_, rest) =>
          (readMany (fun cs => (readSymbol "," cs).bind one) rest.length rest).2
      readSymbol "]" ((readSymbol "," rest).getD rest)

/-- The inclusion of another template; no other template exists. -/
def readInclusion (cs : List Char) : Read Node :=
  (readTagWord "include" cs).bind fun (left, rest) =>
    (readNames rest).bind fun rest =>
      let (lenient, rest) :=
        match readSymbol "ignore missing" rest with
        | some rest => (true, rest)
        | none => (false, rest)
      (readTagEnd rest).map fun (right, rest) => (.inclusion { left, right } lenient, rest)

/-- The characters before the next tag of any kind. -/
def readText : List Char → List Char × List Char
  | '{' :: c :: rest =>
    if c = '{' ∨ c = '%' ∨ c = '#' then ([], '{' :: c :: rest)
    else
      let (text, rest) := readText (c :: rest)
      ('{' :: text, rest)
  | c :: rest =>
    let (text, rest) := readText rest
    (c :: text, rest)
  | [] => ([], [])

/-- The characters before the tag that ends raw text, and that tag. -/
def readRawText : List Char → Read (List Char × Trim)
  | [] => none
  | c :: rest =>
    match readBareTag "endraw" (c :: rest) with
    | some (stop, rest) => some (([], stop), rest)
    | none => (readRawText rest).map fun ((text, stop), rest) => ((c :: text, stop), rest)

/-- Raw text. -/
def readRaw (cs : List Char) : Read Node :=
  (readBareTag "raw" cs).bind fun (start, rest) =>
    (readRawText rest).map fun ((text, stop), rest) => (.raw start text stop, rest)

/-- The default value of a parameter. -/
def readDefault (cs : List Char) : Read Value :=
  let cs := skip cs
  readFirst [fun cs => (readBool cs).map fun (b, rest) => (.bool b, rest),
    fun cs => (readString cs).map fun (s, rest) => (.str (String.ofList s), rest),
    fun cs => (readDouble cs).map fun (d, rest) => (.num (.double d), rest),
    fun cs => (readInt cs).map fun (i, rest) => (.int i, rest)] cs

/-- A parameter of a macro. -/
def readParam (cs : List Char) : Read Param :=
  (readIdent cs).map fun (name, rest) =>
    match (readSymbol "=" rest).bind readDefault with
    | some (v, rest) => ({ name, default? := some v }, rest)
    | none => ({ name, default? := none }, rest)

/-! ### Parts -/

/-- What a place allows: a loop body allows loop control, the top level definitions. -/
inductive Place where
  | top
  | loopBody
  | inner
deriving DecidableEq

mutual

/-- As many parts as can be read. -/
def readNodes : (fuel : Nat) → Place → List Char → List Node × List Char
  | 0, _, cs => ([], cs)
  | fuel + 1, place, cs =>
    match readNode fuel place cs with
    | none => ([], cs)
    | some (node, rest) =>
      let (more, rest) := readNodes fuel place rest
      (node :: more, rest)

/-- One part. -/
def readNode : (fuel : Nat) → Place → List Char → Read Node
  | 0, _, _ => none
  | _ + 1, _, [] => none
  | fuel + 1, place, cs =>
    match cs with
    | '{' :: '#' :: _ => (readComment cs).map fun (trim, rest) => (.comment trim, rest)
    | '{' :: '{' :: _ => readDisplay cs
    | '{' :: '%' :: _ =>
      let control (word : String) (make : Trim → Node) (cs : List Char) : Read Node :=
        if place = .loopBody then
          (readBareTag word cs).map fun (trim, rest) => (make trim, rest)
        else none
      readFirst [readInclusion, readAssign "set" false, readAssign "set_global" true,
        readBlock fuel place, readCond fuel place, readLoop fuel, readFilteredSection fuel place,
        readRaw, control "break" .leave, control "continue" .skip, readMacro fuel place] cs
    | _ =>
      match readText cs with
      | ([], _) => none
      | (text, rest) => some (.text text, rest)

/-- A condition with its branches. -/
def readCond : (fuel : Nat) → Place → List Char → Read Node
  | 0, _, _ => none
  | fuel + 1, place, cs =>
    (readBranch fuel place "if" cs).bind fun ((trim, e, body), rest) =>
      let (more, rest) := readBranches fuel place rest
      let branches := Branches.cons trim e body more
      match readBareTag "else" rest with
      | some (elseTrim, rest) =>
        let (otherwise, rest) := readNodes fuel place rest
        (readBareTag "endif" rest).map fun (stop, rest) =>
          (.cond branches (some otherwise) elseTrim stop, rest)
      | none =>
        (readBareTag "endif" rest).map fun (stop, rest) =>
          (.cond branches none {} stop, rest)

/-- A tag with a condition, and the parts behind it. -/
def readBranch : (fuel : Nat) → Place → (word : String) → List Char →
    Read (Trim × Expr × List Node)
  | 0, _, _, _ => none
  | fuel + 1, place, word, cs =>
    (readTagWord word cs).bind fun (left, rest) =>
      (readCondition rest).bind fun (e, rest) =>
        (readTagEnd rest).map fun (right, rest) =>
          let (body, rest) := readNodes fuel place rest
          (({ left, right }, e, body), rest)

/-- Further branches. -/
def readBranches : (fuel : Nat) → Place → List Char → Branches × List Char
  | 0, _, cs => (.nil, cs)
  | fuel + 1, place, cs =>
    match readBranch fuel place "elif" cs with
    | none => (.nil, cs)
    | some ((trim, e, body), rest) =>
      let (more, rest) := readBranches fuel place rest
      (.cons trim e body more, rest)

/-- A loop with its alternative for an empty source. -/
def readLoop : (fuel : Nat) → List Char → Read Node
  | 0, _ => none
  | fuel + 1, cs =>
    (readTagWord "for" cs).bind fun (left, rest) =>
      (readLoopNames rest).bind fun ((key, item), rest) =>
        (readKeyword "in" rest).bind fun rest =>
          (readSource rest).bind fun (source, rest) =>
            (readTagEnd rest).bind fun (right, rest) =>
              let (body, rest) := readNodes fuel .loopBody rest
              let (empty, rest) : Option (List Node) × List Char :=
                match readBareTag "else" rest with
                | some (_, rest) =>
                  let (empty, rest) := readNodes fuel .loopBody rest
                  (some empty, rest)
                | none => (none, rest)
              (readBareTag "endfor" rest).map fun (stop, rest) =>
                (.loop { left, right } key item source body empty stop, rest)

/-- One name or two names separated by a comma, and a blank. -/
def readLoopNames (cs : List Char) : Read (Option String × String) :=
  (readIdent cs).bind fun (first, rest) =>
    let names : Read (Option String × String) :=
      match rest with
      | ',' :: more =>
        (readIdent more).map fun (second, rest) => ((some first, second), rest)
      | _ => some ((none, first), rest)
    names.bind fun (names, rest) =>
      match rest with
      | c :: _ => if isSpace c then some (names, rest) else none
      | [] => none

/-- A section that runs through a filter. -/
def readFilteredSection : (fuel : Nat) → Place → List Char → Read Node
  | 0, _, _ => none
  | fuel + 1, place, cs =>
    (readTagWord "filter" cs).bind fun (left, rest) =>
      let named : Read (String × Args) :=
        match readNamedCall (exprFuel rest) rest with
        | some found => some found
        | none => (readIdent rest).map fun (name, rest) => ((name, .nil), rest)
      named.bind fun ((name, args), rest) =>
        (readTagEnd rest).bind fun (right, rest) =>
          let (body, rest) := readNodes fuel (if place = .loopBody then .inner else place) rest
          (readBareTag "endfilter" rest).map fun (stop, rest) =>
            (.filtered { left, right } name args body stop, rest)

/-- A named block. -/
def readBlock : (fuel : Nat) → Place → List Char → Read Node
  | 0, _, _ => none
  | fuel + 1, place, cs =>
    (readTagWord "block" cs).bind fun (left, rest) =>
      (readIdent rest).bind fun (name, rest) =>
        (readTagEnd rest).bind fun (right, rest) =>
          let (body, rest) := readNodes fuel place rest
          (readNamedEnd "endblock" rest).map fun (stop, rest) =>
            (.block { left, right } name body stop, rest)

/-- A macro, which stands at the top level. -/
def readMacro : (fuel : Nat) → Place → List Char → Read Node
  | 0, _, _ => none
  | fuel + 1, place, cs =>
    if place ≠ .top then none
    else
      (readTagWord "macro" cs).bind fun (left, rest) =>
        (readIdent rest).bind fun (name, rest) =>
          (readSymbol "(" rest).bind fun rest =>
            let (params, rest) : List Param × List Char :=
              match readParam rest with
              | none => ([], rest)
              | some (first, rest) =>
                let (more, rest) :=
                  readMany (fun cs => (readSymbol "," cs).bind readParam) rest.length rest
                (first :: more, rest)
            (readSymbol ")" rest).bind fun rest =>
              (readTagEnd rest).bind fun (right, rest) =>
                let (body, rest) := readNodes fuel .inner rest
                (readNamedEnd "endmacro" rest).map fun (stop, rest) =>
                  (.macroDef { left, right } name params body stop, rest)

end

/-! ### Trim markers -/

/-- Drop the blanks at the end of a last part that is text; an empty text goes away. -/
def trimLast : List Node → List Node
  | [] => []
  | [.text s] =>
    match trimEnd s with
    | [] => []
    | s => [.text s]
  | [node] => [node]
  | node :: rest => node :: trimLast rest

/-- `trimLast` under a condition. -/
def trimLastIf (marked : Bool) (nodes : List Node) : List Node :=
  if marked then trimLast nodes else nodes

/-- Drop the blanks at the end of the last part of the last branch. -/
def Branches.trimLast : Branches → Branches
  | .nil => .nil
  | .cons trim e body .nil => .cons trim e (Template.trimLast body) .nil
  | .cons trim e body rest => .cons trim e body rest.trimLast

/-- The markers of the first branch. -/
def Branches.firstTrim : Branches → Trim
  | .nil => {}
  | .cons trim _ _ _ => trim

/-- The part in front of a tag, trimmed if the tag says so: only text that stands directly in
front of it. -/
def closeText (marked : Bool) (pending : Option (List Char)) : List Node :=
  match pending with
  | none => []
  | some s =>
    match if marked then trimEnd s else s with
    | [] => []
    | s => [.text s]

/-- The markers of the tag that starts a part: whether it trims the text in front of it. -/
def Node.trimsLeft : Node → Bool
  | .text _ => false
  | .display trim _ => trim.left
  | .assign trim _ _ _ => trim.left
  | .comment trim => trim.left
  | .raw start _ _ => start.left
  | .cond branches _ _ _ => branches.firstTrim.left
  | .loop start _ _ _ _ _ _ => start.left
  | .filtered start _ _ _ _ => start.left
  | .block start _ _ _ => start.left
  | .inclusion trim _ => trim.left
  | .macroDef start _ _ _ _ => start.left
  | .skip trim => trim.left
  | .leave trim => trim.left

/-- The markers of the tag that ends a part: whether it trims the text behind it. -/
def Node.trimsRight : Node → Bool
  | .text _ => false
  | .display trim _ => trim.right
  | .assign trim _ _ _ => trim.right
  | .comment trim => trim.right
  | .raw _ _ stop => stop.right
  | .cond _ _ _ stop => stop.right
  | .loop _ _ _ _ _ _ stop => stop.right
  | .filtered _ _ _ _ stop => stop.right
  | .block _ _ _ stop => stop.right
  | .inclusion trim _ => trim.right
  | .macroDef _ _ _ _ stop => stop.right
  | .skip trim => trim.right
  | .leave trim => trim.right

/-- Raw text between its own tags. -/
def trimRaw (start stop : Trim) (text : List Char) : List Char :=
  let text := if start.right then trimStart text else text
  if stop.left then trimEnd text else text

/-- Whether the next branch trims the end of this one. -/
def nextTrimsLeft : Branches → Bool
  | .nil => false
  | .cons trim _ _ _ => trim.left

mutual

/-- Apply the markers inside a part. -/
def trimInside : Node → Node
  | .raw start text stop => .raw start (trimRaw start stop text) stop
  | .cond branches none elseTrim stop =>
    let branches := trimBranches branches
    .cond (if stop.left then branches.trimLast else branches) none elseTrim stop
  | .cond branches (some otherwise) elseTrim stop =>
    let branches := trimBranches branches
    let branches := if elseTrim.left then branches.trimLast else branches
    let otherwise := trimFrom elseTrim.right none otherwise
    .cond branches (some (trimLastIf stop.left otherwise)) elseTrim stop
  | .loop start key item source body empty stop =>
    .loop start key item source (trimLastIf stop.left (trimFrom start.right none body)) empty stop
  | .filtered start name args body stop =>
    .filtered start name args (trimLastIf stop.left (trimFrom start.right none body)) stop
  | .block start name body stop =>
    .block start name (trimLastIf stop.left (trimFrom start.right none body)) stop
  | .macroDef start name params body stop =>
    .macroDef start name params (trimLastIf stop.left (trimFrom start.right none body)) stop
  | node => node
termination_by structural node => node

/-- Apply the markers inside branches and between them. -/
def trimBranches : Branches → Branches
  | .nil => .nil
  | .cons trim e body rest =>
    let body := trimFrom trim.right none body
    .cons trim e (trimLastIf (nextTrimsLeft rest) body) (trimBranches rest)
termination_by structural branches => branches

/-- Apply the markers to parts; `dropLeft` tells that the tag in front trims to the right, and
`pending` is the text that is not yet closed by a tag. -/
def trimFrom (dropLeft : Bool) (pending : Option (List Char)) : List Node → List Node
  | [] => closeText false pending
  | .text s :: rest => trimFrom false (some (if dropLeft then trimStart s else s)) rest
  | node :: rest =>
    closeText node.trimsLeft pending
      ++ trimInside node :: trimFrom node.trimsRight none rest
termination_by structural nodes => nodes

end

/-- The parts of a text with the trim markers applied. -/
def trimNodes (nodes : List Node) : List Node :=
  trimFrom false none nodes

/-! ### Whole templates -/

mutual

/-- The names of the blocks at the top level and inside other blocks. -/
def blockNames : List Node → List String
  | [] => []
  | node :: rest => blockNamesOf node ++ blockNames rest
termination_by structural nodes => nodes

/-- The names of a block and of the blocks inside it. -/
def blockNamesOf : Node → List String
  | .block _ name body _ => name :: blockNames body
  | _ => []
termination_by structural node => node

end

/-- The names of the macros. -/
def macroNames (nodes : List Node) : List String :=
  nodes.filterMap fun
    | .macroDef _ name _ _ _ => some name
    | _ => none

/-- Whether no name occurs twice. -/
def allDistinct : List String → Bool
  | [] => true
  | name :: rest => !rest.contains name && allDistinct rest

/-- A whole text as a template; names of blocks and of macros must not repeat. -/
def ofChars? (cs : List Char) : Option (List Node) :=
  match readNodes (4 * cs.length + 4) .top cs with
  | (nodes, []) =>
    if allDistinct (blockNames nodes) && allDistinct (macroNames nodes) then some (trimNodes nodes)
    else none
  | _ => none

end Runbook.Template
