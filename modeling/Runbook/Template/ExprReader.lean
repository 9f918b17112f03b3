import Runbook.Template.Basic
import Runbook.Decimal.Reading
import Runbook.Text.Blank
/-!
# Reading expressions

The expressions of the template language over character lists.  Every reader takes the front of
the text and returns what it read and the rest; alternatives are tried in order, and the first one
that reads wins even when what follows cannot be read.

* `readLogic` — alternatives joined by `or` and `and`, the weakest binding;
* `readComparison` — at most one comparison between arithmetic or strings;
* `readFiltered` — arithmetic with filters behind it;
* `readArithmetic` — operators and parentheses over basic terms.

Blanks are allowed between lexemes.  A keyword in front of an operand may run on into a name, while
`not`, `and` and `or` have to be followed by a blank.
-/

namespace Runbook.Template

open Runbook.Text

/-- What a reader returns: what it read and the rest of the text. -/
abbrev Read (α : Type) := Option (α × List Char)

/-- The blanks between lexemes. -/
def isSpace (c : Char) : Bool :=
  c == ' ' || c == '\t' || c == '\r' || c == '\n'

/-- Skip blanks. -/
def skip (cs : List Char) : List Char :=
  cs.dropWhile isSpace

/-- A fixed word behind optional blanks. -/
def readSymbol (symbol : String) (cs : List Char) : Option (List Char) :=
  dropStart? symbol.toList (skip cs)

/-- An identifier behind optional blanks. -/
def readIdent (cs : List Char) : Read String :=
  match skip cs with
  | c :: rest =>
    if isIdentStart c then
      some (String.ofList (c :: rest.takeWhile isIdentChar), rest.dropWhile isIdentChar)
    else none
  | [] => none

/-- A keyword that has to be followed by a blank. -/
def readKeyword (word : String) (cs : List Char) : Option (List Char) :=
  match dropStart? word.toList (skip cs) with
  | some (c :: rest) => if isSpace c then some rest else none
  | _ => none

/-! ### Literals -/

/-- The text up to a closing quote. -/
def readUntil (quote : Char) (cs : List Char) : Read (List Char) :=
  splitAtFirst? (· == quote) cs

/-- A string between quotes of one of three kinds; there are no escapes. -/
def readString : List Char → Read (List Char)
  | c :: rest => if c = '"' ∨ c = '\'' ∨ c = '\x60' then readUntil c rest else none
  | [] => none

/-- Digits without a leading zero. -/
def readDigits : List Char → Read (List Char)
  | '0' :: rest => some (['0'], rest)
  | c :: rest =>
    if c.isDigit then some (c :: rest.takeWhile Char.isDigit, rest.dropWhile Char.isDigit)
    else none
  | [] => none

/-- Digits with an optional minus sign. -/
def readSigned (cs : List Char) : Read (Bool × List Char) :=
  match cs with
  | '-' :: rest => (readDigits rest).map fun (digits, rest) => ((true, digits), rest)
  | _ => (readDigits cs).map fun (digits, rest) => ((false, digits), rest)

/-- An integer. -/
def readInt (cs : List Char) : Read Int :=
  (readSigned cs).map fun ((negative, digits), rest) =>
    let n : Int := Decimal.runValue digits
    (if negative then -n else n, rest)

/-- A numeral with a point and digits on both sides. -/
def readDouble (cs : List Char) : Read Double :=
  (readSigned cs).bind fun ((negative, digits), rest) =>
    match rest with
    | '.' :: rest =>
      let (fraction, rest) := Decimal.digitRun rest
      if fraction.isEmpty then none
      else some (Double.ofDecimal negative (Decimal.runValue (digits ++ fraction))
        (-(fraction.length : Int)), rest)
    | _ => none

/-- A truth value. -/
def readBool (cs : List Char) : Read Bool :=
  match dropStart? "true".toList cs with
  | some rest => some (true, rest)
  | none =>
    match dropStart? "false".toList cs with
    | some rest => some (false, rest)
    | none =>
      match dropStart? "True".toList cs with
      | some rest => some (true, rest)
      | none => (dropStart? "False".toList cs).map fun rest => (false, rest)

/-! ### References -/

/-- Further dotted parts of a path. -/
def readDots : (fuel : Nat) → List Char → List Char × List Char
  | 0, cs => ([], cs)
  | fuel + 1, '.' :: c :: rest =>
    if isIdentChar c then
      let part := '.' :: c :: rest.takeWhile isIdentChar
      let (more, rest) := readDots fuel (rest.dropWhile isIdentChar)
      (part ++ more, rest)
    else ([], '.' :: c :: rest)
  | _ + 1, cs => ([], cs)

/-- A name and dotted parts. -/
def readDotted : List Char → Read (List Char)
  | c :: rest =>
    if isIdentStart c then
      let name := c :: rest.takeWhile isIdentChar
      let rest := rest.dropWhile isIdentChar
      let (more, rest) := readDots rest.length rest
      some (name ++ more, rest)
    else none
  | [] => none

/-- The text of a read prefix: what stands before the rest. -/
def consumed (cs rest : List Char) : List Char :=
  cs.take (cs.length - rest.length)

mutual

/-- A reference: a dotted path with subscripts, as it is written. -/
def readRef : (fuel : Nat) → List Char → Read (List Char)
  | 0, _ => none
  | fuel + 1, cs =>
    (readDotted cs).map fun (path, rest) =>
      let (more, rest) := readSubscripts fuel rest
      (path ++ more, rest)

/-- Subscripts and dotted parts behind a path. -/
def readSubscripts : (fuel : Nat) → List Char → List Char × List Char
  | 0, cs => ([], cs)
  | fuel + 1, cs =>
    match readDots cs.length cs with
    | (dots@(_ :: _), rest) =>
      let (more, rest) := readSubscripts fuel rest
      (dots ++ more, rest)
    | ([], _) =>
      match cs with
      | '[' :: inner =>
        match readSubscript fuel inner with
        | some (key, rest) =>
          let (more, rest) := readSubscripts fuel rest
          ('[' :: (key ++ ']' :: more), rest)
        | none => ([], cs)
      | _ => ([], cs)

/-- The inside of a subscript and its closing bracket: an integer, a string or a reference. -/
def readSubscript : (fuel : Nat) → List Char → Read (List Char)
  | 0, _ => none
  | fuel + 1, cs =>
    let inner : Option (List Char) :=
      match readInt cs with
      | some (_, rest) => some rest
      | none =>
        match readString cs with
        | some (_, rest) => some rest
        | none => (readRef fuel cs).map Prod.snd
    match inner with
    | some (']' :: rest) => some (consumed cs (']' :: rest), rest)
    | _ => none

end

/-- A reference behind optional blanks. -/
def readPath (cs : List Char) : Read (List Char) :=
  let cs := skip cs
  readRef (cs.length + 1) cs

/-! ### Operators -/

/-- An arithmetic operator. -/
def readMathOp (cs : List Char) : Read MathOp :=
  match skip cs with
  | '+' :: rest => some (.add, rest)
  | '-' :: rest => some (.sub, rest)
  | '*' :: rest => some (.mul, rest)
  | '/' :: rest => some (.div, rest)
  | '%' :: rest => some (.rem, rest)
  | _ => none

/-- A comparison operator. -/
def readCompareOp (cs : List Char) : Read CompareOp :=
  match skip cs with
  | '<' :: '=' :: rest => some (.le, rest)
  | '>' :: '=' :: rest => some (.ge, rest)
  | '>' :: rest => some (.gt, rest)
  | '<' :: rest => some (.lt, rest)
  | '=' :: '=' :: rest => some (.eq, rest)
  | '!' :: '=' :: rest => some (.ne, rest)
  | _ => none

/-- A logical connective. -/
def readLogicOp (cs : List Char) : Read LogicOp :=
  match readKeyword "or" cs with
  | some rest => some (.or, rest)
  | none => (readKeyword "and" cs).map fun rest => (.and, rest)

/-- Operands joined by operators on two levels, both grouping to the left.  `low` is the part
before the last operator of the weak level. -/
def climb {α ω : Type} (tight : ω → Bool) (join : ω → α → α → α) :
    (low : Option (α × ω)) → (current : α) → List (ω × α) → α
  | none, current, [] => current
  | some (l, op), current, [] => join op l current
  | low, current, (op, operand) :: rest =>
    if tight op then climb tight join low (join op current operand) rest
    else
      match low with
      | none => climb tight join (some (current, op)) operand rest
      | some (l, prev) => climb tight join (some (join prev l current, op)) operand rest

/-- Arithmetic on terms. -/
def joinTerms (op : MathOp) (lhs rhs : Term) : Term :=
  .math op (.ofTerm lhs) (.ofTerm rhs)

/-- Arithmetic on expressions with filters. -/
def joinExprs (op : MathOp) (lhs rhs : Expr) : Expr :=
  .ofTerm (.math op lhs rhs)

/-- Logic on expressions. -/
def joinLogic (op : LogicOp) (lhs rhs : Expr) : Expr :=
  .ofTerm (.logic op lhs rhs)

/-- `and` binds tighter than `or`. -/
def LogicOp.bindsTighter : LogicOp → Bool
  | .and => true
  | .or => false

/-- Filters of a list. -/
def Filters.ofList : List (String × Args) → Filters
  | [] => .nil
  | (name, args) :: rest => .cons name args (ofList rest)

/-- Terms of a list. -/
def Terms.ofList : List Term → Terms
  | [] => .nil
  | t :: rest => .cons t (ofList rest)

/-- Expressions of a list. -/
def Exprs.ofList : List Expr → Exprs
  | [] => .nil
  | e :: rest => .cons e (ofList rest)

/-- Arguments of a list. -/
def Args.ofList : List (String × Expr) → Args
  | [] => .nil
  | (name, e) :: rest => .cons name e (ofList rest)

/-! ### Expressions -/

/-- Read again and again until a reader fails or the fuel runs out. -/
def readMany {α : Type} (read : List Char → Read α) : (fuel : Nat) → List Char → List α × List Char
  | 0, cs => ([], cs)
  | fuel + 1, cs =>
    match read cs with
    | none => ([], cs)
    | some (a, rest) =>
      let (more, rest) := readMany read fuel rest
      (a :: more, rest)

/-- Both readers one after the other. -/
def readBoth {α β : Type} (first : List Char → Read α) (second : List Char → Read β)
    (cs : List Char) : Read (α × β) :=
  (first cs).bind fun (a, rest) => (second rest).map fun (b, rest) => ((a, b), rest)

/-- The first reader that reads. -/
def readFirst {α : Type} : List (List Char → Read α) → List Char → Read α
  | [], _ => none
  | read :: others, cs =>
    match read cs with
    | some found => some found
    | none => readFirst others cs

mutual

/-- Alternatives joined by `or` and `and`. -/
def readLogic : (fuel : Nat) → List Char → Read Expr
  | 0, _ => none
  | fuel + 1, cs =>
    (readLogicOperand fuel cs).map fun (first, rest) =>
      let (more, rest) := readMany (readBoth readLogicOp (readLogicOperand fuel)) rest.length rest
      (climb LogicOp.bindsTighter joinLogic none first more, rest)

/-- Membership or a comparison, which may be negated, or a parenthesised expression.  Parentheses
replace the negation mark of what they hold. -/
def readLogicOperand : (fuel : Nat) → List Char → Read Expr
  | 0, _ => none
  | fuel + 1, cs =>
    let (negated, inner) :=
      match readKeyword "not" cs with
      | some rest => (true, rest)
      | none => (false, cs)
    match readFirst [readMember fuel, readComparison fuel] inner with
    | some (e, rest) => some (e.withNegated negated, rest)
    | none =>
      (readSymbol "(" cs).bind fun rest =>
        (readLogic fuel rest).bind fun (e, rest) =>
          (readSymbol ")" rest).map fun rest => (e.withNegated false, rest)

/-- Membership in a string, a list or a referenced container. -/
def readMember : (fuel : Nat) → List Char → Read Expr
  | 0, _ => none
  | fuel + 1, cs =>
    (readFirst [readStringExpr fuel, readFiltered fuel] cs).bind fun (item, rest) =>
      let (negated, rest) :=
        match readKeyword "not" rest with
        | some rest => (true, rest)
        | none => (false, rest)
      (readSymbol "in" rest).bind fun rest =>
        (readFirst [readStringExpr fuel, readListExpr fuel,
            fun cs => (readPath cs).map fun (path, rest) => (.ofTerm (.ref path), rest)] rest).map
          fun (container, rest) => (.ofTerm (.member negated item container), rest)

/-- At most one comparison. -/
def readComparison : (fuel : Nat) → List Char → Read Expr
  | 0, _ => none
  | fuel + 1, cs =>
    let operand := readFirst [readStringExpr fuel, readCompareOperand fuel]
    (operand cs).map fun (lhs, rest) =>
      match readBoth readCompareOp operand rest with
      | some ((op, rhs), rest) => (.ofTerm (.compare op lhs rhs), rest)
      | none => (lhs, rest)

/-- Arithmetic between expressions with filters. -/
def readCompareOperand : (fuel : Nat) → List Char → Read Expr
  | 0, _ => none
  | fuel + 1, cs =>
    (readFiltered fuel cs).map fun (first, rest) =>
      let (more, rest) := readMany (readBoth readMathOp (readFiltered fuel)) rest.length rest
      (climb MathOp.bindsTighter joinExprs none first more, rest)

/-- Arithmetic with filters behind it. -/
def readFiltered : (fuel : Nat) → List Char → Read Expr
  | 0, _ => none
  | fuel + 1, cs =>
    (readArithmetic fuel cs).map fun (t, rest) =>
      let (filters, rest) := readMany (readFilter fuel) rest.length rest
      (.mk t false (.ofList filters), rest)

/-- A string or a concatenation with filters behind it. -/
def readStringExpr : (fuel : Nat) → List Char → Read Expr
  | 0, _ => none
  | fuel + 1, cs =>
    (readFirst [readConcat fuel,
        fun cs => (readString (skip cs)).map fun (s, rest) => (.str s, rest)] cs).map
      fun (t, rest) =>
        let (filters, rest) := readMany (readFilter fuel) rest.length rest
        (.mk t false (.ofList filters), rest)

/-- At least two parts joined by tildes. -/
def readConcat : (fuel : Nat) → List Char → Read Term
  | 0, _ => none
  | fuel + 1, cs =>
    let part := readFirst [readCall fuel, readDoubleTerm, readIntTerm, readStringTerm, readRefTerm]
    (part cs).bind fun (first, rest) =>
      let joined (cs : List Char) : Read Term := (readSymbol "~" cs).bind part
      match readMany joined rest.length rest with
      | ([], _) => none
      | (more, rest) => some (.concat (.ofList (first :: more)), rest)

/-- Operators and parentheses over basic terms. -/
def readArithmetic : (fuel : Nat) → List Char → Read Term
  | 0, _ => none
  | fuel + 1, cs =>
    (readOperand fuel cs).map fun (first, rest) =>
      let (more, rest) := readMany (readBoth readMathOp (readOperand fuel)) rest.length rest
      (climb MathOp.bindsTighter joinTerms none first more, rest)

/-- A basic term or parenthesised arithmetic. -/
def readOperand : (fuel : Nat) → List Char → Read Term
  | 0, _ => none
  | fuel + 1, cs =>
    let parenthesised (cs : List Char) : Read Term :=
      (readSymbol "(" cs).bind fun rest =>
        (readArithmetic fuel rest).bind fun (t, rest) =>
          (readSymbol ")" rest).map fun rest => (t, rest)
    readFirst [parenthesised, readBoolTerm, readTest fuel true, readTest fuel false,
      readMacroCall fuel, readCall fuel, readRefTerm, readDoubleTerm, readIntTerm] cs

/-- A test of a reference, with `is not` or `is`. -/
def readTest : (fuel : Nat) → (negated : Bool) → List Char → Read Term
  | 0, _, _ => none
  | fuel + 1, negated, cs =>
    (readPath cs).bind fun (path, rest) =>
      (readSymbol "is" rest).bind fun rest =>
        (if negated then readSymbol "not" rest else some rest).bind fun rest =>
          (readIdent rest).map fun (name, rest) =>
            match (readSymbol "(" rest).bind (readTestArgs fuel) with
            | some (args, rest) => (.test negated path name (.ofList args), rest)
            | none => (.test negated path name .nil, rest)

/-- The arguments of a test and the closing parenthesis. -/
def readTestArgs : (fuel : Nat) → List Char → Read (List Expr)
  | 0, _ => none
  | fuel + 1, cs =>
    let arg := readFirst [readLogic fuel, readListExpr fuel]
    (arg cs).bind fun (first, rest) =>
      let joined (cs : List Char) : Read Expr := (readSymbol "," cs).bind arg
      let (more, rest) := readMany joined rest.length rest
      (readSymbol ")" rest).map fun rest => (first :: more, rest)

/-- A filter: a bar and a call or a name. -/
def readFilter : (fuel : Nat) → List Char → Read (String × Args)
  | 0, _ => none
  | fuel + 1, cs =>
    (readSymbol "|" cs).bind fun rest =>
      match readNamedCall fuel rest with
      | some found => some found
      | none => (readIdent rest).map fun (name, rest) => ((name, .nil), rest)

/-- A call as a term. -/
def readCall : (fuel : Nat) → List Char → Read Term
  | 0, _ => none
  | fuel + 1, cs =>
    (readNamedCall fuel cs).map fun ((name, args), rest) => (.call name args, rest)

/-- A name and arguments in parentheses. -/
def readNamedCall : (fuel : Nat) → List Char → Read (String × Args)
  | 0, _ => none
  | fuel + 1, cs =>
    (readIdent cs).bind fun (name, rest) =>
      (readSymbol "(" rest).bind fun rest =>
        (readArgs fuel rest).map fun (args, rest) => ((name, .ofList args), rest)

/-- A macro call. -/
def readMacroCall : (fuel : Nat) → List Char → Read Term
  | 0, _ => none
  | fuel + 1, cs =>
    (readIdent cs).bind fun (space, rest) =>
      (readSymbol "::" rest).bind fun rest =>
        (readNamedCall fuel rest).map fun ((name, args), rest) =>
          (.macroCall space name args, rest)

/-- Named arguments and the closing parenthesis. -/
def readArgs : (fuel : Nat) → List Char → Read (List (String × Expr))
  | 0, _ => none
  | fuel + 1, cs =>
    match readArg fuel cs with
    | none => (readSymbol ")" cs).map fun rest => ([], rest)
    | some (first, rest) =>
      let joined (cs : List Char) : Read (String × Expr) := (readSymbol "," cs).bind (readArg fuel)
      let (more, rest) := readMany joined rest.length rest
      let rest := (readSymbol "," rest).getD rest
      (readSymbol ")" rest).map fun rest => (first :: more, rest)

/-- A named argument. -/
def readArg : (fuel : Nat) → List Char → Read (String × Expr)
  | 0, _ => none
  | fuel + 1, cs =>
    (readIdent cs).bind fun (name, rest) =>
      (readSymbol "=" rest).bind fun rest =>
        (readFirst [readLogic fuel, readListExpr fuel] rest).map fun (e, rest) => ((name, e), rest)

/-- A list with filters behind it. -/
def readListExpr : (fuel : Nat) → List Char → Read Expr
  | 0, _ => none
  | fuel + 1, cs =>
    (readSymbol "[" cs).bind fun rest =>
      let (items, rest) :=
        match readLogicOperand fuel rest with
        | none => ([], rest)
        | some (first, rest) =>
          let joined (cs : List Char) : Read Expr :=
            (readSymbol "," cs).bind (readLogicOperand fuel)
          let (more, rest) := readMany joined rest.length rest
          (first :: more, rest)
      let rest := (readSymbol "," rest).getD rest
      (readSymbol "]" rest).map fun rest =>
        let (filters, rest) := readMany (readFilter fuel) rest.length rest
        (.mk (.list (.ofList items)) false (.ofList filters), rest)

/-- A truth value as a term. -/
def readBoolTerm (cs : List Char) : Read Term :=
  (readBool (skip cs)).map fun (b, rest) => (.bool b, rest)

/-- A numeral with a point as a term. -/
def readDoubleTerm (cs : List Char) : Read Term :=
  (readDouble (skip cs)).map fun (d, rest) => (.double d, rest)

/-- An integer in the range of signed words as a term. -/
def readIntTerm (cs : List Char) : Read Term :=
  (readInt (skip cs)).bind fun (i, rest) =>
    if Number.minInt ≤ i ∧ i < Number.signedBound then some (.int i, rest) else none

/-- A string as a term. -/
def readStringTerm (cs : List Char) : Read Term :=
  (readString (skip cs)).map fun (s, rest) => (.str s, rest)

/-- A reference as a term. -/
def readRefTerm (cs : List Char) : Read Term :=
  (readPath cs).map fun (path, rest) => (.ref path, rest)

end

/-- The fuel with which a text of this length is read: each level of nesting takes at least one
character and passes through a bounded number of readers. -/
def exprFuel (cs : List Char) : Nat :=
  16 * cs.length + 16

/-- An expression that is assigned or passed: logic, or a list. -/
def readValueExpr (cs : List Char) : Read Expr :=
  readFirst [readLogic (exprFuel cs), readListExpr (exprFuel cs)] cs

/-- An expression that decides a condition. -/
def readCondition (cs : List Char) : Read Expr :=
  readLogic (exprFuel cs) cs

/-- The source of a loop: arithmetic with filters, or a list. -/
def readSource (cs : List Char) : Read Expr :=
  readFirst [readFiltered (exprFuel cs), readListExpr (exprFuel cs)] cs

end Runbook.Template
