import Runbook.Text.Blank
/-!
# The syntax of shell scripts

* `Piece`, `Word` — the parts of a word: text between quotes and outside of them, and parameters;
* `Token` — words, operators and redirections of a script;
* `Command` — commands and how they are put together: one after the other, by success and
  failure, in branches, loops over words, groups, subshells and pipes;
* `Command.ofScript?` — the command of a script.
-/

namespace Runbook.Shell

/-- A part of a word. -/
inductive Piece where
  | quoted (text : List Char)
  | plain (text : List Char)
  | parameter (name : String) (quoted : Bool) (fallback : Option String)
deriving DecidableEq, Repr

/-- A word by its parts. -/
abbrev Word := List Piece

/-- Where a stream is sent to or taken from. -/
inductive Target where
  | stream (number : Nat)
  | write (path : Word)
  | append (path : Word)
  | read (path : Word)
deriving DecidableEq, Repr

/-- A stream by its number, and its target. -/
abbrev Redirect := Nat × Target

/-- A part of a script. -/
inductive Token where
  | word (word : Word)
  | operator (text : String)
  | redirect (number : Nat) (sign : String)
deriving DecidableEq, Repr

/-- A command of a script. -/
inductive Command where
  | skip
  | simple (assignments : List (String × Word)) (words : List Word) (redirects : List Redirect)
  | both (first second : Command)
  | andThen (first second : Command)
  | orElse (first second : Command)
  | negate (command : Command)
  | branch (condition yes no : Command)
  | forEach (name : String) (words : List Word) (body : Command)
  | group (body : Command) (redirects : List Redirect)
  | subshell (body : Command) (redirects : List Redirect)
  | pipe (first second : Command)

/-! ### Tokens -/

/-- A character that ends a word outside of quotes. -/
def endsWord (c : Char) : Bool :=
  " \t\n;&|()<>".toList.contains c

/-- The parameter behind a dollar sign, and what follows. -/
def readParameter? (quoted : Bool) : List Char → Option (Piece × List Char)
  | '\x7b' :: cs =>
    let name := cs.takeWhile Text.isIdentChar
    let rest := cs.dropWhile Text.isIdentChar
    let inside := rest.takeWhile (· != '\x7d')
    let after := (rest.dropWhile (· != '\x7d')).tail
    let fallback := match inside with
      | ':' :: '-' :: text => some (String.ofList text)
      | '-' :: text => some (String.ofList text)
      | _ => none
    some (.parameter (String.ofList name) quoted fallback, after)
  | c :: cs =>
    if Text.isIdentStart c then
      some (.parameter (String.ofList (c :: cs.takeWhile Text.isIdentChar)) quoted none,
        cs.dropWhile Text.isIdentChar)
    else if c.isDigit || c == '?' || c == '$' || c == '#' then
      some (.parameter (String.ofList [c]) quoted none, cs)
    else none
  | [] => none

/-- The pieces of a text between double quotes, and what follows the closing one. -/
def readQuoted : (fuel : Nat) → (text : List Char) → List Char → Option (Word × List Char)
  | 0, _, _ => none
  | _ + 1, _, [] => none
  | _ + 1, text, '"' :: cs => some ([.quoted text], cs)
  | fuel + 1, text, '\\' :: c :: cs =>
    if c = '"' ∨ c = '\\' ∨ c = '$' ∨ c = '\x60' then readQuoted fuel (text ++ [c]) cs
    else if c = '\n' then readQuoted fuel text cs
    else readQuoted fuel (text ++ ['\\', c]) cs
  | fuel + 1, text, '$' :: cs =>
    match readParameter? true cs with
    | some (piece, rest) =>
      (readQuoted fuel [] rest).map fun (pieces, rest) => (.quoted text :: piece :: pieces, rest)
    | none => readQuoted fuel (text ++ ['$']) cs
  | fuel + 1, text, c :: cs => readQuoted fuel (text ++ [c]) cs

/-- The pieces of a word, and what follows. -/
def readPieces : (fuel : Nat) → List Char → Option (Word × List Char)
  | 0, _ => none
  | _ + 1, [] => some ([], [])
  | fuel + 1, c :: cs =>
    let next (piece : Word) (rest : List Char) : Option (Word × List Char) :=
      (readPieces fuel rest).map fun (pieces, rest) => (piece ++ pieces, rest)
    if endsWord c then some ([], c :: cs)
    else if c = '\'' then
      let rest := cs.dropWhile (· != '\'')
      if rest.isEmpty then none else next [.quoted (cs.takeWhile (· != '\''))] rest.tail
    else if c = '"' then (readQuoted fuel [] cs).bind fun (pieces, rest) => next pieces rest
    else if c = '\\' then
      match cs with
      | [] => next [.plain ['\\']] []
      | d :: rest => if d = '\n' then next [] rest else next [.quoted [d]] rest
    else if c = '$' then
      match readParameter? false cs with
      | some (piece, rest) => next [piece] rest
      | none => next [.plain ['$']] cs
    else next [.plain [c]] cs

/-- Put neighbouring plain pieces together. -/
def joinPlain : Word → Word
  | [] => []
  | .plain a :: rest =>
    match joinPlain rest with
    | .plain b :: more => .plain (a ++ b) :: more
    | more => .plain a :: more
  | piece :: rest => piece :: joinPlain rest

/-- The operators, longer ones first. -/
def operators : List String :=
  ["&&", "||", ";;", ";", "|", "&", "(", ")", "\n"]

/-- The signs of redirections, longer ones first. -/
def redirectSigns : List String :=
  [">>", ">&", "<&", ">|", ">", "<"]

/-- The first of several texts that a list starts with, and what follows it. -/
def readFirst? (texts : List String) (cs : List Char) : Option (String × List Char) :=
  texts.findSome? fun t => (Text.dropStart? t.toList cs).map fun rest => (t, rest)

/-- The tokens of a script. -/
def tokens? : (fuel : Nat) → List Char → Option (List Token)
  | 0, _ => none
  | _ + 1, [] => some []
  | fuel + 1, c :: cs =>
    if c = ' ' ∨ c = '\t' then tokens? fuel cs
    else if c = '#' then tokens? fuel (cs.dropWhile (· != '\n'))
    else
      match readFirst? redirectSigns (c :: cs) with
      | some (sign, rest) =>
        let number := if sign.toList.head? = some '<' then 0 else 1
        (tokens? fuel rest).map (.redirect number sign :: ·)
      | none =>
        match if c.isDigit then readFirst? redirectSigns cs else none with
        | some (sign, rest) =>
          (tokens? fuel rest).map (.redirect (c.toNat - 48) sign :: ·)
        | none =>
          match readFirst? operators (c :: cs) with
          | some (text, rest) => (tokens? fuel rest).map (.operator text :: ·)
          | none =>
            (readPieces (cs.length + 2) (c :: cs)).bind fun (pieces, rest) =>
              (tokens? fuel rest).map (.word (joinPlain pieces) :: ·)

/-! ### Commands -/

/-- The text of a word that is a single plain piece. -/
def Token.plain? : Token → Option String
  | .word [.plain text] => some (String.ofList text)
  | _ => none

/-- The words that end a list of commands. -/
def closers : List String :=
  ["then", "elif", "else", "fi", "do", "done", "\x7d"]

/-- An assignment before a command. -/
def assignment? : Token → Option (String × Word)
  | .word (.plain text :: rest) =>
    match Text.splitAtFirst? (· == '=') text with
    | some (name, value) =>
      if Text.isIdentifier name then
        some (String.ofList name, (if value.isEmpty then rest else .plain value :: rest))
      else none
    | none => none
  | _ => none

/-- The target of a redirection. -/
def target? (sign : String) (word : Word) : Option Target :=
  if sign = ">&" ∨ sign = "<&" then
    match word with
    | [.plain [c]] => if c.isDigit then some (.stream (c.toNat - 48)) else none
    | _ => none
  else if sign = "<" then some (.read word)
  else if sign = ">>" then some (.append word)
  else some (.write word)

/-- The redirections behind a group. -/
def readRedirects : (fuel : Nat) → List Token → List Redirect × List Token
  | fuel + 1, .redirect number sign :: .word word :: rest =>
    match target? sign word with
    | some target =>
      let (more, rest) := readRedirects fuel rest
      ((number, target) :: more, rest)
    | none => ([], .redirect number sign :: .word word :: rest)
  | _, tokens => ([], tokens)

/-- The assignments, words and redirections of a simple command. -/
def readSimple : (fuel : Nat) → (started : Bool) → List Token →
    Option ((List (String × Word) × List Word × List Redirect) × List Token)
  | fuel + 1, started, .redirect number sign :: .word word :: rest =>
    (target? sign word).bind fun target =>
      (readSimple fuel started rest).map fun ((a, w, r), rest) =>
        ((a, w, (number, target) :: r), rest)
  | fuel + 1, started, .word word :: rest =>
    match if started then none else assignment? (.word word) with
    | some entry =>
      (readSimple fuel false rest).map fun ((a, w, r), rest) => ((entry :: a, w, r), rest)
    | none =>
      (readSimple fuel true rest).map fun ((a, w, r), rest) => ((a, word :: w, r), rest)
  | _, _, .redirect _ _ :: _ => none
  | _, _, tokens => some (([], [], []), tokens)

/-- Drop the line ends at the start. -/
def skipLines (tokens : List Token) : List Token :=
  tokens.dropWhile (· == .operator "\n")

/-- What follows an expected plain word. -/
def expect? (text : String) : List Token → Option (List Token)
  | token :: rest => if token.plain? = some text then some rest else none
  | [] => none

/-- The words up to the end of a line or a semicolon. -/
def takeWords : List Token → List Word × List Token
  | .word word :: rest =>
    let (words, rest) := takeWords rest
    (word :: words, rest)
  | tokens => ([], tokens)

/-- Drop one separator. -/
def skipSeparator : List Token → List Token
  | .operator ";" :: rest => skipLines rest
  | tokens => skipLines tokens

mutual

/-- A list of commands up to a closing word, a closing parenthesis or the end. -/
def readList : (fuel : Nat) → List Token → Option (Command × List Token)
  | 0, _ => none
  | fuel + 1, tokens =>
    let tokens := skipLines tokens
    match tokens with
    | [] => some (.skip, [])
    | .operator ")" :: _ => some (.skip, tokens)
    | token :: _ =>
      if token.plain?.any closers.contains then some (.skip, tokens)
      else
        (readChain fuel tokens).bind fun (first, rest) =>
          match rest with
          | .operator ";" :: more | .operator "\n" :: more | .operator "&" :: more =>
            (readList fuel more).map fun (second, rest) => (.both first second, rest)
          | rest => some (first, rest)

/-- Pipelines that depend on the success of those before them. -/
def readChain : (fuel : Nat) → List Token → Option (Command × List Token)
  | 0, _ => none
  | fuel + 1, tokens => (readPipeline fuel tokens).bind fun (first, rest) => chain fuel first rest

/-- Go on with a chain. -/
def chain : (fuel : Nat) → Command → List Token → Option (Command × List Token)
  | 0, _, _ => none
  | fuel + 1, first, .operator "&&" :: rest =>
    (readPipeline fuel (skipLines rest)).bind fun (second, rest) =>
      chain fuel (.andThen first second) rest
  | fuel + 1, first, .operator "||" :: rest =>
    (readPipeline fuel (skipLines rest)).bind fun (second, rest) =>
      chain fuel (.orElse first second) rest
  | _ + 1, first, rest => some (first, rest)

/-- Commands connected by pipes. -/
def readPipeline : (fuel : Nat) → List Token → Option (Command × List Token)
  | 0, _ => none
  | fuel + 1, tokens =>
    match expect? "!" tokens with
    | some rest => (readPipeline fuel rest).map fun (c, rest) => (.negate c, rest)
    | none => (readCommand fuel tokens).bind fun (first, rest) => pipeline fuel first rest

/-- Go on with a pipeline. -/
def pipeline : (fuel : Nat) → Command → List Token → Option (Command × List Token)
  | 0, _, _ => none
  | fuel + 1, first, .operator "|" :: rest =>
    (readCommand fuel (skipLines rest)).bind fun (second, rest) =>
      pipeline fuel (.pipe first second) rest
  | _ + 1, first, rest => some (first, rest)

/-- What follows the condition of a branch. -/
def readBranch : (fuel : Nat) → List Token → Option (Command × List Token)
  | 0, _ => none
  | fuel + 1, tokens =>
    (readList fuel tokens).bind fun (condition, rest) =>
      (expect? "then" rest).bind fun rest =>
        (readList fuel rest).bind fun (yes, rest) =>
          match rest with
          | [] => none
          | token :: more =>
            if token.plain? = some "fi" then some (.branch condition yes .skip, more)
            else if token.plain? = some "elif" then
              (readBranch fuel more).map fun (no, rest) => (.branch condition yes no, rest)
            else if token.plain? = some "else" then
              (readList fuel more).bind fun (no, rest) =>
                (expect? "fi" rest).map fun rest => (.branch condition yes no, rest)
            else none

/-- One command. -/
def readCommand : (fuel : Nat) → List Token → Option (Command × List Token)
  | 0, _ => none
  | fuel + 1, .operator "(" :: tokens =>
    (readList fuel tokens).bind fun (body, rest) =>
      match rest with
      | .operator ")" :: rest =>
        let (redirects, rest) := readRedirects rest.length rest
        some (.subshell body redirects, rest)
      | _ => none
  | fuel + 1, tokens =>
    match tokens.head?.bind Token.plain? with
    | some "\x7b" =>
      (readList fuel tokens.tail).bind fun (body, rest) =>
        (expect? "\x7d" rest).map fun rest =>
          let (redirects, rest) := readRedirects rest.length rest
          (.group body redirects, rest)
    | some "if" => readBranch fuel tokens.tail
    | some "for" =>
      (tokens.tail.head?.bind Token.plain?).bind fun name =>
        (expect? "in" tokens.tail.tail).bind fun rest =>
          let (words, rest) := takeWords rest
          (expect? "do" (skipSeparator rest)).bind fun rest =>
            (readList fuel rest).bind fun (body, rest) =>
              (expect? "done" rest).map fun rest => (.forEach name words body, rest)
    | _ =>
      (readSimple (tokens.length + 1) false tokens).bind fun ((a, w, r), rest) =>
        if a.isEmpty && w.isEmpty && r.isEmpty then none else some (.simple a w r, rest)

end

/-- The command of a script. -/
def Command.ofScript? (script : List Char) : Option Command :=
  (tokens? (script.length + 1) script).bind fun tokens =>
    (readList (8 * tokens.length + 8) tokens).bind fun (command, rest) =>
      if rest.isEmpty then some command else none

end Runbook.Shell
