import Runbook.Condition.Expr
import Runbook.Condition.Token
/-!
# Reading conditions

From tokens to expressions, with one function per form:

* `readUnary`, `readOperators`, `readExpr` — signs, binary operators by precedence, whole
  expressions;
* `readPrimary`, `readPostfix` — operands and the chains behind them;
* `Expr.ofChars?` — a whole text as one expression.

A reader's `level` counts what its tokens are nested in, which is limited.  Statements are no
expressions: a branch holds exactly one expression between its braces.
-/

namespace Runbook.Condition

/-- A reader's answer: what was read and the tokens behind it. -/
abbrev Reading (α : Type) := Option (α × List Token)

/-! ### Words -/

/-- The words with a meaning of their own. -/
def keywords : List String :=
  ["true", "false", "let", "const", "if", "else", "switch", "do", "while", "until", "loop", "for",
    "in", "continue", "break", "return", "throw", "try", "catch", "import", "export", "as",
    "global", "private", "fn", "_"]

/-- The words that no expression may use. -/
def reservedWords : List String :=
  ["public", "protected", "super", "new", "use", "module", "package", "var", "static", "shared",
    "with", "is", "goto", "match", "case", "default", "void", "null", "nil", "spawn", "thread",
    "go", "sync", "async", "await", "yield", "this"]

/-- The words that may only be called. -/
def callableWords : List String :=
  ["print", "debug", "type_of", "eval", "Fn", "call", "curry", "is_shared", "is_def_fn",
    "is_def_var"]

/-- A word that names a variable or a property. -/
def isPlainName (name : String) : Bool :=
  !(keywords.contains name || reservedWords.contains name || callableWords.contains name)

/-! ### Operators -/

/-- What stands between two operands. -/
inductive Infix where
  | operator (op : Operator)
  | and
  | or
  | coalesce
  | member (negated : Bool)

/-- The operator of a token, with its precedence. -/
def infixOf? : Token → Option (Infix × Nat)
  | .word ['i', 'n'] => some (.member false, 110)
  | .symbol s =>
    match s with
    | "||" => some (.or, 30)
    | "|" => some (.operator .bitOr, 30)
    | "^" => some (.operator .bitXor, 30)
    | "&&" => some (.and, 60)
    | "&" => some (.operator .bitAnd, 60)
    | "==" => some (.operator .eq, 90)
    | "!=" => some (.operator .ne, 90)
    | "!in" => some (.member true, 110)
    | "<" => some (.operator .lt, 130)
    | "<=" => some (.operator .le, 130)
    | ">" => some (.operator .gt, 130)
    | ">=" => some (.operator .ge, 130)
    | "??" => some (.coalesce, 135)
    | ".." => some (.operator .rangeTo, 140)
    | "..=" => some (.operator .rangeThrough, 140)
    | "+" => some (.operator .add, 150)
    | "-" => some (.operator .sub, 150)
    | "*" => some (.operator .mul, 180)
    | "/" => some (.operator .div, 180)
    | "%" => some (.operator .rem, 180)
    | "**" => some (.operator .pow, 190)
    | "<<" => some (.operator .shl, 210)
    | ">>" => some (.operator .shr, 210)
    | _ => none
  | _ => none

/-- Powers group to the right. -/
def Infix.groupsRight : Infix → Bool
  | .operator .pow => true
  | _ => false

/-- Two operands around an operator; connectives refuse constants that are no truth values. -/
def Infix.join? : Infix → Expr → Expr → Option Expr
  | .operator op, lhs, rhs => some (.binary op lhs rhs)
  | .and, lhs, rhs => if lhs.mayBeBool && rhs.mayBeBool then some (.and lhs rhs) else none
  | .or, lhs, rhs => if lhs.mayBeBool && rhs.mayBeBool then some (.or lhs rhs) else none
  | .coalesce, lhs, rhs => some (.coalesce lhs rhs)
  | .member negated, lhs, rhs => some (.member negated lhs rhs)

/-- The precedence of the operator at the front of the tokens; zero if there is none. -/
def nextPrecedence (tokens : List Token) : Nat :=
  ((tokens.head?.bind infixOf?).map Prod.snd).getD 0

/-- A sign before an operand; constants take it in. -/
def Expr.withSign? : Sign → Expr → Option Expr
  | .negate, .int i =>
    some (if i = -(Int.pow 2 63) then .double (Double.ofInt (Int.pow 2 63)) else .int (-i))
  | .negate, .double d => some (.double d.neg)
  | .keep, .int i => some (.int i)
  | .keep, .double d => some (.double d)
  | sign, e => some (.signed sign e)

/-- Whether a literal may be indexed by an expression. -/
def mayIndex (root index : Expr) : Bool :=
  match root with
  | .record _ _ =>
    match index with
    | .int _ | .double _ | .char _ | .unit | .bool _ | .and _ _ | .or _ _ => false
    | _ => true
  | .int _ | .list _ | .str _ | .joined _ =>
    match index with
    | .str _ | .joined _ | .double _ | .char _ | .unit | .bool _ | .and _ _ | .or _ _ => false
    | _ => true
  | .double _ | .char _ | .bool _ | .and _ _ | .or _ _ | .unit => false
  | _ => true

/-- A chain with one more step. -/
def Expr.extend (e : Expr) (link : Link) : Expr :=
  match e with
  | .chain root links => .chain root (links ++ [link])
  | root => .chain root [link]

/-- A key of a record. -/
def readKey : List Token → Reading String
  | .word w :: rest =>
    let name := String.ofList w
    if isPlainName name then some (name, rest) else none
  | .str s :: rest => some (String.ofList s, rest)
  | _ => none

/-- A given symbol. -/
def readMark (s : String) : List Token → Option (List Token)
  | t :: rest => if t = .symbol s then some rest else none
  | [] => none

/-- The names of the parameters of a closure, up to the closing bar. -/
def readParams : List Token → Reading (List String)
  | .symbol s :: rest => if s = "|" then some ([], rest) else none
  | .word w :: .symbol s :: rest =>
    let name := String.ofList w
    if !isPlainName name then none
    else if s = "|" then some ([name], rest)
    else if s = "," then (readParams rest).map fun (names, rest) => (name :: names, rest)
    else none
  | _ => none

/-- The depth to which expressions may nest. -/
def maxLevel : Nat := 64

/-! ### Expressions -/

mutual

/-- An expression. -/
def readExpr : (fuel level : Nat) → List Token → Reading Expr
  | 0, _, _ => none
  | fuel + 1, level, tokens =>
    if maxLevel ≤ level then none
    else
      (readUnary fuel (level + 1) tokens).bind fun (lhs, rest) =>
        readOperators fuel (level + 1) 1 lhs rest

/-- The operators behind an operand that bind at least as tight as `parent`. -/
def readOperators : (fuel level parent : Nat) → (lhs : Expr) → List Token → Reading Expr
  | 0, _, _, _, _ => none
  | fuel + 1, level, parent, lhs, tokens =>
    match tokens with
    | [] => some (lhs, [])
    | t :: rest =>
      match infixOf? t with
      | none => some (lhs, tokens)
      | some (op, precedence) =>
        if precedence < parent ∨ (precedence = parent ∧ !op.groupsRight) then some (lhs, tokens)
        else
          (readUnary fuel level rest).bind fun (rhs, rest) =>
            let next := nextPrecedence rest
            let operand : Reading Expr :=
              if precedence < next ∨ (precedence = next ∧ op.groupsRight) then
                readOperators fuel level precedence rhs rest
              else some (rhs, rest)
            operand.bind fun (rhs, rest) =>
              if maxLevel ≤ level then none
              else
                (op.join? lhs rhs).bind fun joined =>
                  readOperators fuel (level + 1) parent joined rest

/-- An operand with its signs. -/
def readUnary : (fuel level : Nat) → List Token → Reading Expr
  | 0, _, _ => none
  | fuel + 1, level, tokens =>
    match tokens with
    | .symbol "-" :: rest => sign fuel level .negate rest
    | .symbol "+" :: rest => sign fuel level .keep rest
    | .symbol "!" :: rest => sign fuel level .invert rest
    | tokens =>
      (readPrimary fuel level tokens).bind fun (e, rest) => readPostfix fuel level e rest
where
  /-- An operand behind a sign. -/
  sign (fuel level : Nat) (s : Sign) (rest : List Token) : Reading Expr :=
    match fuel with
    | 0 => none
    | fuel + 1 =>
      if maxLevel ≤ level then none
      else
        (readUnary fuel (level + 1) rest).bind fun (e, rest) =>
          (e.withSign? s).map fun e => (e, rest)

/-- The chain behind an operand. -/
def readPostfix : (fuel level : Nat) → Expr → List Token → Reading Expr
  | 0, _, _, _ => none
  | fuel + 1, level, e, tokens =>
    match tokens with
    | .symbol "." :: rest => readStep fuel level e false rest
    | .symbol "?." :: rest => readStep fuel level e true rest
    | .symbol "[" :: rest => readSubscript fuel level e false rest
    | .symbol "?[" :: rest => readSubscript fuel level e true rest
    | tokens => some (e, tokens)

/-- A property or a method call, and the chain behind it. -/
def readStep : (fuel level : Nat) → Expr → (optional : Bool) → List Token → Reading Expr
  | 0, _, _, _, _ => none
  | fuel + 1, level, e, optional, tokens =>
    match tokens with
    | .word w :: rest =>
      let name := String.ofList w
      let callable := isPlainName name || callableWords.contains name
      match rest with
      | .symbol "()" :: rest =>
        if callable then readPostfix fuel level (e.extend (.method optional name [])) rest
        else none
      | .symbol "(" :: rest =>
        if callable then
          (readArgs fuel level rest).bind fun (args, rest) =>
            readPostfix fuel level (e.extend (.method optional name args)) rest
        else none
      | rest =>
        if isPlainName name then readPostfix fuel level (e.extend (.property optional name)) rest
        else none
    | _ => none

/-- A subscript and the chain behind it. -/
def readSubscript : (fuel level : Nat) → Expr → (optional : Bool) → List Token → Reading Expr
  | 0, _, _, _, _ => none
  | fuel + 1, level, e, optional, tokens =>
    (readExpr fuel level tokens).bind fun (index, rest) =>
      (readMark "]" rest).bind fun rest =>
        if mayIndex e index then
          readPostfix fuel level (e.extend (.subscript optional index)) rest
        else none

/-- An operand without signs. -/
def readPrimary : (fuel level : Nat) → List Token → Reading Expr
  | 0, _, _ => none
  | fuel + 1, level, tokens =>
    match tokens with
    | [] => none
    | .int i :: rest => some (.int i, rest)
    | .double d :: rest => some (.double d, rest)
    | .char c :: rest => some (.char c, rest)
    | .str s :: rest => some (.str (String.ofList s), rest)
    | .opened s :: rest =>
      (readParts fuel (level + 1) rest).map fun (parts, rest) =>
        let parts := if s.isEmpty then parts else .str (String.ofList s) :: parts
        (if parts.isEmpty then .str "" else .joined parts, rest)
    | .word w :: rest => readNamed fuel level (String.ofList w) rest
    | .symbol "()" :: rest => some (.unit, rest)
    | .symbol "(" :: rest =>
      (readExpr fuel (level + 1) rest).bind fun (e, rest) =>
        (readMark ")" rest).map fun rest => (e, rest)
    | .symbol "[" :: rest =>
      (readItems fuel (level + 1) rest).map fun (items, rest) => (.list items, rest)
    | .symbol "\x23\x7b" :: rest =>
      (readEntries fuel (level + 1) rest).bind fun (entries, rest) =>
        let keys := entries.map Prod.fst
        if keys.eraseDups.length = keys.length then
          some (.record keys (entries.map Prod.snd), rest)
        else none
    | .symbol "||" :: rest => readClosure fuel (level + 1) [] rest
    | .symbol "|" :: rest =>
      (readParams rest).bind fun (params, rest) =>
        if params.eraseDups.length = params.length then readClosure fuel (level + 1) params rest
        else none
    | _ => none

/-- An operand that starts with a word. -/
def readNamed : (fuel level : Nat) → (name : String) → List Token → Reading Expr
  | 0, _, _, _ => none
  | fuel + 1, level, name, rest =>
    if name = "true" then some (.bool true, rest)
    else if name = "false" then some (.bool false, rest)
    else if name = "if" then readIf fuel (level + 1) rest
    else if name = "switch" then readSwitch fuel (level + 1) rest
    else
      match rest with
      | .symbol "()" :: rest =>
        if isPlainName name || callableWords.contains name then some (.call name [], rest) else none
      | .symbol "(" :: rest =>
        if isPlainName name || callableWords.contains name then
          (readArgs fuel level rest).map fun (args, rest) => (.call name args, rest)
        else none
      | .symbol "::" :: rest => if isPlainName name then readQualified fuel level rest else none
      | rest => if isPlainName name then some (.name name, rest) else none

/-- What a module is to provide: a name or a call; there are no modules. -/
def readQualified : (fuel level : Nat) → List Token → Reading Expr
  | 0, _, _ => none
  | fuel + 1, level, tokens =>
    match tokens with
    | .word w :: rest =>
      if isPlainName (String.ofList w) then
        match rest with
        | .symbol "::" :: rest => readQualified fuel level rest
        | .symbol "()" :: rest => some (.qualified [], rest)
        | .symbol "(" :: rest =>
          (readArgs fuel level rest).map fun (args, rest) => (.qualified args, rest)
        | rest => some (.qualified [], rest)
      else none
    | _ => none

/-- The parts of a text behind its beginning: expressions and further texts. -/
def readParts : (fuel level : Nat) → List Token → Reading (List Expr)
  | 0, _, _ => none
  | fuel + 1, level, tokens =>
    (readBlock fuel level tokens).bind fun (e, rest) =>
      let front : List Expr :=
        match e with
        | .str s => if s.isEmpty then [] else [.str s]
        | e => [e]
      match rest with
      | .str s :: rest =>
        some (front ++ (if s.isEmpty then [] else [.str (String.ofList s)]), rest)
      | .opened s :: rest =>
        (readParts fuel level rest).map fun (parts, rest) =>
          (front ++ (if s.isEmpty then parts else .str (String.ofList s) :: parts), rest)
      | _ => none

/-- One expression between braces. -/
def readBlock : (fuel level : Nat) → List Token → Reading Expr
  | 0, _, _ => none
  | fuel + 1, level, tokens =>
    (readMark "\x7b" tokens).bind fun rest =>
      (readExpr fuel level rest).bind fun (e, rest) =>
        (readMark "\x7d" rest).map fun rest => (e, rest)

/-- A conditional behind its first word. -/
def readIf : (fuel level : Nat) → List Token → Reading Expr
  | 0, _, _ => none
  | fuel + 1, level, tokens =>
    (readExpr fuel level tokens).bind fun (condition, rest) =>
      if !condition.mayBeBool then none
      else
        (readBlock fuel level rest).bind fun (yes, rest) =>
          match rest with
          | .word ['e', 'l', 's', 'e'] :: .word ['i', 'f'] :: rest =>
            (readIf fuel level rest).map fun (no, rest) => (.cond condition yes no, rest)
          | .word ['e', 'l', 's', 'e'] :: rest =>
            (readBlock fuel level rest).map fun (no, rest) => (.cond condition yes no, rest)
          | rest => some (.cond condition yes .unit, rest)

/-- A choice behind its first word. -/
def readSwitch : (fuel level : Nat) → List Token → Reading Expr
  | 0, _, _ => none
  | fuel + 1, level, tokens =>
    (readExpr fuel level tokens).bind fun (subject, rest) =>
      (readMark "\x7b" rest).bind fun rest =>
        (readCases fuel level rest).map fun ((cases, otherwise), rest) =>
          (.choose subject cases (otherwise.getD .unit), rest)

/-- The cases of a choice up to the closing brace. -/
def readCases : (fuel level : Nat) → List Token → Reading (List Choice × Option Expr)
  | 0, _, _ => none
  | fuel + 1, level, tokens =>
    match tokens with
    | .symbol "\x7d" :: rest => some (([], none), rest)
    | .word ['_'] :: rest =>
      (readMark "=>" rest).bind fun rest =>
        (readResult fuel level rest).bind fun (result, rest) =>
          (readMark "\x7d" rest).map fun rest => (([], some result), rest)
    | tokens =>
      (readCaseValues fuel level tokens).bind fun (values, rest) =>
        let guarded : Reading Expr :=
          match rest with
          | .word ['i', 'f'] :: rest => readExpr fuel level rest
          | rest => some (.bool true, rest)
        guarded.bind fun (guard, rest) =>
          (readMark "=>" rest).bind fun rest =>
            (readResult fuel level rest).bind fun (result, rest) =>
              (readCases fuel level rest).map fun ((cases, otherwise), rest) =>
                ((.mk values guard result :: cases, otherwise), rest)

/-- The values of a case, with bars between them. -/
def readCaseValues : (fuel level : Nat) → List Token → Reading (List Expr)
  | 0, _, _ => none
  | fuel + 1, level, tokens =>
    (readUnary fuel level tokens).bind fun (lhs, rest) =>
      (readOperators fuel level 31 lhs rest).bind fun (value, rest) =>
        match rest with
        | .symbol "|" :: rest =>
          (readCaseValues fuel level rest).map fun (values, rest) => (value :: values, rest)
        | rest => some ([value], rest)

/-- The result of a case; a comma may only be missing behind a brace. -/
def readResult : (fuel level : Nat) → List Token → Reading Expr
  | 0, _, _ => none
  | fuel + 1, level, tokens =>
    match tokens with
    | .symbol "\x7b" :: _ =>
      (readBlock fuel level tokens).map fun (e, rest) => (e, (readMark "," rest).getD rest)
    | tokens =>
      (readExpr fuel level tokens).bind fun (e, rest) =>
        match rest with
        | .symbol "," :: rest => some (e, rest)
        | .symbol "\x7d" :: _ => some (e, rest)
        | _ => none

/-- The body of a closure. -/
def readClosure : (fuel level : Nat) → (params : List String) → List Token → Reading Expr
  | 0, _, _, _ => none
  | fuel + 1, level, params, tokens =>
    let body :=
      match tokens with
      | .symbol "\x7b" :: _ => readBlock fuel level tokens
      | tokens => readExpr fuel level tokens
    body.map fun (e, rest) => (.closure params e, rest)

/-- Arguments up to the closing parenthesis. -/
def readArgs : (fuel level : Nat) → List Token → Reading (List Expr)
  | 0, _, _ => none
  | fuel + 1, level, tokens =>
    match tokens with
    | .symbol ")" :: rest => some ([], rest)
    | tokens =>
      (readExpr fuel level tokens).bind fun (e, rest) =>
        match rest with
        | .symbol "," :: rest => (readArgs fuel level rest).map fun (es, rest) => (e :: es, rest)
        | .symbol ")" :: rest => some ([e], rest)
        | _ => none

/-- Items up to the closing bracket. -/
def readItems : (fuel level : Nat) → List Token → Reading (List Expr)
  | 0, _, _ => none
  | fuel + 1, level, tokens =>
    match tokens with
    | .symbol "]" :: rest => some ([], rest)
    | tokens =>
      (readExpr fuel level tokens).bind fun (e, rest) =>
        match rest with
        | .symbol "," :: rest => (readItems fuel level rest).map fun (es, rest) => (e :: es, rest)
        | .symbol "]" :: rest => some ([e], rest)
        | _ => none

/-- Entries of a record up to the closing brace. -/
def readEntries : (fuel level : Nat) → List Token → Reading (List (String × Expr))
  | 0, _, _ => none
  | fuel + 1, level, tokens =>
    match tokens with
    | .symbol "\x7d" :: rest => some ([], rest)
    | tokens =>
      (readKey tokens).bind fun (key, rest) =>
        (readMark ":" rest).bind fun rest =>
          (readExpr fuel level rest).bind fun (e, rest) =>
            match rest with
            | .symbol "," :: rest =>
              (readEntries fuel level rest).map fun (entries, rest) => ((key, e) :: entries, rest)
            | .symbol "\x7d" :: rest => some ([(key, e)], rest)
            | _ => none

end

/-- A text as one expression. -/
def Expr.ofChars? (cs : List Char) : Option Expr :=
  (scan? cs).bind fun tokens =>
    match readExpr (12 * tokens.length + 12) 0 tokens with
    | some (e, []) => some e
    | _ => none

end Runbook.Condition
