import Runbook.Template.Action.Basic
/-!
# Actions in the template language

A tag in dot style becomes a tag of the template language:

* `Scope` — the filters that may be called and the blocks that are open;
* `Scope.word?` — a reference: a dotted path off the current element, off the whole namespace, or
  off a declared name;
* `Scope.term?`, `Scope.stage?`, `Scope.pipeline?` — operands, commands and pipelines;
* `Scope.tag?` — one tag; block tags open and close blocks, so the scope carries over from tag to
  tag.

A tag that is not in a supported form is left to the caller, and the scope then stays as it was.
-/

namespace Runbook.Template.Action

/-- The name under which a template sees the whole namespace. -/
def root : List Char := "__root".toList

/-- An open block: a condition, or a loop and the name of its element. -/
inductive Block where
  | cond
  | loop (dot : List Char)
deriving DecidableEq, Repr

/-- What a tag can refer to: the filters by name and the open blocks, the innermost first. -/
structure Scope where
  filters : List (List Char)
  blocks : List Block := []
deriving Repr

namespace Scope

/-- The name of the element of the innermost loop. -/
def dot? (s : Scope) : Option (List Char) :=
  s.blocks.findSome? fun
    | .loop dot => some dot
    | .cond => none

/-- The number of open loops. -/
def loops (s : Scope) : Nat :=
  s.blocks.countP fun
    | .loop _ => true
    | .cond => false

end Scope

/-- A later part of a dotted path: letters, digits and underscores, at least one. -/
def isPathPart (part : List Char) : Bool :=
  !part.isEmpty && part.all Text.isIdentChar

/-- A dotted path: an identifier and further parts. -/
def isPath (cs : List Char) : Bool :=
  match Text.splitBy (· == '.') cs with
  | [] => false
  | first :: parts => Text.isIdentifier first && parts.all isPathPart

/-- A dotted path, if it is one. -/
def path? (cs : List Char) : Option (List Char) :=
  if isPath cs then some cs else none

/-- The quotes a string literal can have, in the order of preference. -/
def quotes : List Char := ['"', '\'', '\x60']

/-- A string literal of the template language: literals have no escapes, so the first quote that
does not occur in the text is taken. -/
def literal? (text : List Char) : Option (List Char) :=
  (quotes.find? fun q => !text.contains q).map fun q => q :: (text ++ [q])

/-- A declared name: a dollar sign and an identifier. -/
def declared? : List Char → Option (List Char)
  | '$' :: name => if Text.isIdentifier name then some name else none
  | _ => none

/-- A word that names a function when arguments follow. -/
def isFunctionName (word : List Char) : Bool :=
  Text.isIdentifier word && !(["true".toList, "false".toList, "nil".toList].contains word)

/-- The infix operator that a comparison becomes. -/
def comparison? (name : List Char) : Option (List Char) :=
  [("eq", "=="), ("ne", "!="), ("lt", "<"), ("le", "<="), ("gt", ">"), ("ge", ">=")].findSome?
    fun (word, op) => if word.toList = name then some op.toList else none

namespace Scope

/-- A reference. -/
def word? (s : Scope) (word : List Char) : Option (List Char) :=
  match word with
  | ['.'] => some (s.dot?.getD root)
  | ['$'] => some root
  | '$' :: '.' :: path => path? path
  | '$' :: path => path? path
  | '.' :: path =>
    (path? path).map fun path =>
      match s.dot? with
      | some dot => dot ++ '.' :: path
      | none => path
  | word => if word = "nil".toList then none else path? word

/-- One more subscript behind `base`. -/
def subscript? (s : Scope) (base : List Char) : Term → Option (List Char)
  | .str key =>
    if base = root ∧ Text.isIdentifier key then some key
    else (literal? key).map fun key => base ++ '[' :: (key ++ [']'])
  | .num n => if base ≠ root ∧ n.all Char.isDigit then some (base ++ '.' :: n) else none
  | .word word =>
    (s.word? word).bind fun key =>
      if key = root then none else some (base ++ '[' :: (key ++ [']']))
  | .group _ => none

/-- The arguments of `index`: a reference and subscripts. -/
def index? (s : Scope) : List Term → Option (List Char)
  | .word base :: key :: keys =>
    (s.word? base).bind fun base => (key :: keys).foldlM s.subscript? base
  | _ => none

/-- A call of a function; the arguments already have their final form. -/
def call? (s : Scope) (name : List Char) (args : List (List Char)) : Option (List Char) :=
  match comparison? name, args with
  | some op, [a, b] => some (a ++ ' ' :: (op ++ ' ' :: b))
  | _, args =>
    if name = "and".toList ∨ name = "or".toList then
      match args with
      | _ :: _ :: _ => some (Text.joinWith (' ' :: (name ++ [' '])) args)
      | _ => filter? args
    else filter? args
where
  /-- Negation, length and the filters, which take one argument. -/
  filter? : List (List Char) → Option (List Char)
    | [a] =>
      if name = "not".toList then some ("not ".toList ++ a)
      else if name = "len".toList then some (a ++ " | length".toList)
      else if s.filters.contains name then some (a ++ " | ".toList ++ name)
      else none
    | _ => none

/-- A parenthesised expression keeps its parentheses unless it holds a filter. -/
def grouped (inner : List Char) : List Char :=
  if Text.contains " | ".toList inner then inner else '(' :: (inner ++ [')'])

/-- The name of the function that a first term calls when arguments follow. -/
def calledName? : Term → Option (List Char)
  | .word name => if isFunctionName name then some name else none
  | _ => none

mutual

/-- An operand. -/
def term? (s : Scope) : Term → Option (List Char)
  | .str text => literal? text
  | .num n => some n
  | .word word => s.word? word
  | .group stages => (s.stages? none stages).map grouped
termination_by structural t => t

/-- Operands. -/
def terms? (s : Scope) : List Term → Option (List (List Char))
  | [] => some []
  | t :: rest => (s.term? t).bind fun t => (s.terms? rest).map (t :: ·)
termination_by structural t => t

/-- A stage; `piped` is what the earlier stages give, its last argument. -/
def stage? (s : Scope) (piped : Option (List Char)) : List Term → Option (List Char)
  | [] => none
  | t :: rest =>
    match calledName? t with
    | some name =>
      if rest.isEmpty && piped.isNone then s.term? t
      else if name = "index".toList then
        if piped.isNone then s.index? rest else none
      else (s.terms? rest).bind fun args => s.call? name (args ++ piped.toList)
    | none => if rest.isEmpty && piped.isNone then s.term? t else none
termination_by structural t => t

/-- Stages, each of which is the last argument of the next. -/
def stages? (s : Scope) (piped : Option (List Char)) : List (List Term) → Option (List Char)
  | [] => piped
  | stage :: rest => (s.stage? piped stage).bind fun text => s.stages? (some text) rest
termination_by structural t => t

end

/-- A token list as one expression. -/
def pipeline? (s : Scope) (tokens : List Token) : Option (List Char) :=
  (readPipeline? tokens).bind (s.stages? none)

end Scope

/-! ### Tags -/

/-- A trim marker at the start: a minus sign before a blank. -/
def leadingMarker : List Char → Bool × List Char
  | '-' :: c :: rest => if Text.isBlank c then (true, c :: rest) else (false, '-' :: c :: rest)
  | cs => (false, cs)

/-- A trim marker at the end: a minus sign behind a blank. -/
def trailingMarker (cs : List Char) : Bool × List Char :=
  let (found, rest) := leadingMarker cs.reverse
  (found, rest.reverse)

/-- The text of a comment. -/
def comment? (body : List Char) : Option (List Char) :=
  (Text.dropStart? ['/', '*'] body).bind (Text.dropTail? ['*', '/'])

/-- A statement or an expression between its delimiters. -/
def delimited (kind : Char) (left right : Bool) (inner : List Char) : List Char :=
  let opening := if left then ['{', kind, '-'] else ['{', kind]
  let close := if kind = '{' then '}' else kind
  let closing := if right then ['-', close, '}'] else [close, '}']
  opening ++ ' ' :: (inner ++ ' ' :: closing)

/-- What a tag becomes. -/
inductive TagBody where
  | statement (text : List Char)
  | expression (text : List Char)

/-- Words that start forms which are never supported. -/
def reserved : List (List Char) :=
  ["else", "end", "with", "define", "template", "block", "break", "continue"].map String.toList

/-- The names a loop declares and the tokens of its collection. -/
def loopNames? (s : Scope) : List Token → Option (List (List Char) × List Token)
  | .word value :: .declare :: rest => (declared? value).map fun v => ([v], rest)
  | .word key :: .comma :: .word value :: .declare :: rest =>
    (declared? key).bind fun k => (declared? value).map fun v => ([k, v], rest)
  | rest => some (["__it".toList ++ (Text.natText (s.loops + 1)).toList], rest)

/-- A token list that starts with a given word. -/
def startsWith? (word : String) : List Token → Option (List Token)
  | .word w :: rest => if w = word.toList then some rest else none
  | _ => none

namespace Scope

/-- Open a condition. -/
def openCondition? (s : Scope) (tokens : List Token) : Option (TagBody × Scope) :=
  (s.pipeline? tokens).map fun text =>
    (.statement ("if ".toList ++ text), { s with blocks := .cond :: s.blocks })

/-- Open a loop. -/
def openLoop? (s : Scope) (tokens : List Token) : Option (TagBody × Scope) :=
  (loopNames? s tokens).bind fun (names, rest) =>
    (s.pipeline? rest).bind fun text =>
      names.getLast?.map fun dot =>
        (.statement ("for ".toList ++ Text.joinWith [',', ' '] names ++ " in ".toList ++ text),
          { s with blocks := .loop dot :: s.blocks })

/-- A further branch of the innermost block, which has to be a condition. -/
def elseIf? (s : Scope) (tokens : List Token) : Option (TagBody × Scope) :=
  match s.blocks with
  | .cond :: _ => (s.pipeline? tokens).map fun text => (.statement ("elif ".toList ++ text), s)
  | _ => none

/-- Close the innermost block. -/
def close? (s : Scope) : Option (TagBody × Scope) :=
  match s.blocks with
  | [] => none
  | .cond :: rest => some (.statement "endif".toList, { s with blocks := rest })
  | .loop _ :: rest => some (.statement "endfor".toList, { s with blocks := rest })

/-- Declare a name. -/
def declare? (s : Scope) (name : List Char) (tokens : List Token) : Option (TagBody × Scope) :=
  (declared? name).bind fun name =>
    (s.pipeline? tokens).map fun text =>
      (.statement ("set ".toList ++ name ++ " = ".toList ++ text), s)

/-- The tokens of a tag. -/
def body? (s : Scope) (tokens : List Token) : Option (TagBody × Scope) :=
  match tokens with
  | .word first :: rest =>
    if first = "if".toList then s.openCondition? rest
    else if first = "else".toList ∧ rest = [] then some (.statement "else".toList, s)
    else if first = "else".toList ∧ (startsWith? "if" rest).isSome then
      s.elseIf? (rest.drop 1)
    else if first = "end".toList ∧ rest = [] then s.close?
    else if first = "range".toList then s.openLoop? rest
    else
      match rest with
      | .declare :: rest => s.declare? first rest
      | _ => if reserved.contains first then none else expression?
  | _ => expression?
where
  /-- A tag that shows a value. -/
  expression? : Option (TagBody × Scope) :=
    (s.pipeline? tokens).map fun text => (.expression text, s)

/-- One tag with its braces, and the scope behind it. -/
def tag? (s : Scope) (tag : List Char) : Option (List Char × Scope) :=
  (Text.dropStart? ['{', '{'] tag).bind fun inner =>
    (Text.dropTail? ['}', '}'] inner).bind fun inner =>
      let (left, inner) := leadingMarker inner
      let (right, inner) := trailingMarker inner
      let body := Text.trim inner
      match comment? body with
      | some text => some ('{' :: '#' :: (text ++ ['#', '}']), s)
      | none =>
        (scan? body).bind fun tokens =>
          (s.body? tokens).map fun (body, s) =>
            match body with
            | .statement text => (delimited '%' left right text, s)
            | .expression text => (delimited '{' left right text, s)

end Scope

end Runbook.Template.Action
