import Runbook.Decimal.Reading
import Runbook.Yaml.Token
/-!
# Scalars of YAML documents

Readers of the three ways to write a scalar; each gives the text and the cursor behind it.

* `readPlain` — without quotes: up to a comment, a colon before a space, or a less indented line;
* `readQuoted` — between single or double quotes;
* `readBlock` — lines of a block, kept or folded.

A line break between two lines becomes a space, and further ones are kept.
-/

namespace Runbook.Yaml

/-- A text and the cursor behind it. -/
abbrev Scanned (α : Type) := Option (α × Cursor)

/-! ### Gaps -/

/-- What stands between two runs of a scalar: spaces on a line, or line breaks. -/
structure Gap where
  spaces : List Char := []
  first : List Char := []
  more : List Char := []
  broken : Bool := false

/-- What a gap is in the text of a scalar. -/
def Gap.text (g : Gap) : List Char :=
  if g.broken then
    if g.first.head? = some '\n' then (if g.more.isEmpty then [' '] else g.more)
    else g.first ++ g.more
  else g.spaces

/-- Read spaces, tabs and line breaks; `tabLimit` is the column before which a line may not start
with a tab. -/
def readGap (tabLimit : Nat) : (fuel : Nat) → Gap → Cursor → Scanned Gap
  | 0, g, c => some (g, c)
  | fuel + 1, g, c =>
    match c.head? with
    | none => some (g, c)
    | some ch =>
      if isGap ch then
        if g.broken then
          if ch = '\t' ∧ c.column < tabLimit then none else readGap tabLimit fuel g c.skip
        else readGap tabLimit fuel { g with spaces := g.spaces ++ [ch] } c.skip
      else if isBreak ch then
        let (text, c) := c.readLine
        if g.broken then readGap tabLimit fuel { g with more := g.more ++ text } c
        else readGap tabLimit fuel { g with spaces := [], first := text, broken := true } c
      else some (g, c)

/-! ### Plain scalars -/

/-- Whether a plain scalar ends at the next character. -/
def endsPlain (inFlow : Bool) : List Char → Bool
  | [] => true
  | ':' :: rest => atSpace rest
  | c :: _ => inFlow && [',', '[', ']', '{', '}'].contains c

/-- Whether a colon stands where no plain scalar of a flow collection may hold one. -/
def badColon (inFlow : Bool) : List Char → Bool
  | ':' :: c :: _ => inFlow && [',', '?', '[', ']', '{', '}'].contains c
  | _ => false

/-- The characters of a plain scalar up to the next gap. -/
def readPlainRun (inFlow : Bool) : (fuel : Nat) → Cursor → Scanned (List Char)
  | 0, c => some ([], c)
  | fuel + 1, c =>
    if atSpace c.rest then some ([], c)
    else if badColon inFlow c.rest then none
    else if endsPlain inFlow c.rest then some ([], c)
    else
      (readPlainRun inFlow fuel c.skip).map fun (run, after) => (c.rest.take 1 ++ run, after)

/-- A plain scalar behind some of its runs: its text, and whether a line break follows it. -/
def readPlainFrom (inFlow : Bool) (indent : Nat) :
    (fuel : Nat) → (text : List Char) → Gap → Cursor →
    Scanned (List Char × Bool)
  | 0, text, gap, c => some ((text, gap.broken), c)
  | fuel + 1, text, gap, c =>
    if c.atDocumentMark || c.head? = some '#' then some ((text, gap.broken), c)
    else
      (readPlainRun inFlow (c.rest.length + 1) c).bind fun (run, after) =>
        let text := if run.isEmpty then text else text ++ gap.text ++ run
        let broken := run.isEmpty && gap.broken
        if after.rest.head?.any fun ch => isGap ch || isBreak ch then
          (readGap indent (after.rest.length + 1)
              { (if run.isEmpty then gap else {}) with broken } after).bind fun (gap, next) =>
            if !inFlow && next.column < indent then some ((text, gap.broken), next)
            else readPlainFrom inFlow indent fuel text gap next
        else some ((text, broken), after)

/-- A plain scalar. -/
def readPlain (inFlow : Bool) (indent : Nat) (c : Cursor) : Scanned (List Char × Bool) :=
  readPlainFrom inFlow indent (c.rest.length + 1) [] {} c

/-! ### Quoted scalars -/

/-- The text of a character behind a backslash. -/
def escapeOf? (c : Char) : Option Char :=
  [('0', '\x00'), ('a', '\x07'), ('b', '\x08'), ('t', '\t'), ('\t', '\t'), ('n', '\n'),
    ('v', '\x0b'), ('f', '\x0c'), ('r', '\r'), ('e', '\x1b'), (' ', ' '), ('"', '"'), ('/', '/'),
    ('\\', '\\'), ('N', '\u0085'), ('_', '\u00a0'), ('L', '\u2028'), ('P', '\u2029')].lookup c

/-- The number of digits of a code point behind its letter. -/
def codeLength? (c : Char) : Option Nat :=
  [('x', 2), ('u', 4), ('U', 8)].lookup c

/-- The character of a code point in hexadecimal digits. -/
def readCode? (length : Nat) (cs : List Char) : Option Char :=
  let digits := cs.take length
  if digits.length = length then
    (Decimal.natOfDigits? 16 digits).bind fun n =>
      if n.isValidChar then some (Char.ofNat n) else none
  else none

/-- The characters of a quoted scalar up to its end, a gap, or a line break that is escaped. -/
def readQuotedRun (single : Bool) : (fuel : Nat) → Cursor → Scanned (List Char × Bool)
  | 0, _ => none
  | fuel + 1, c =>
    let push (ch : Char) (found : Scanned (List Char × Bool)) : Scanned (List Char × Bool) :=
      found.map fun ((run, escaped), after) => ((ch :: run, escaped), after)
    match c.rest with
    | [] => some (([], false), c)
    | ch :: rest =>
      if isGap ch || isBreak ch then some (([], false), c)
      else if single then
        if ch = '\'' then
          if rest.head? = some '\'' then push ch (readQuotedRun single fuel (c.skipMany 2))
          else some (([], false), c)
        else push ch (readQuotedRun single fuel c.skip)
      else if ch = '"' then some (([], false), c)
      else if ch = '\\' then
        match rest with
        | [] => none
        | e :: digits =>
          if isBreak e then some (([], true), c.skip.skipLine)
          else
            match escapeOf? e, codeLength? e with
            | some escaped, _ => push escaped (readQuotedRun single fuel (c.skipMany 2))
            | none, some length =>
              (readCode? length digits).bind fun code =>
                push code (readQuotedRun single fuel (c.skipMany (2 + length)))
            | none, none => none
      else push ch (readQuotedRun single fuel c.skip)

/-- A quoted scalar behind some of its runs. -/
def readQuotedFrom (single : Bool) : (fuel : Nat) → (text : List Char) → Cursor →
    Scanned (List Char)
  | 0, _, _ => none
  | fuel + 1, text, c =>
    if c.atDocumentMark then none
    else
      (readQuotedRun single (c.rest.length + 1) c).bind fun ((run, escaped), after) =>
        let text := text ++ run
        match after.rest with
        | [] => none
        | ch :: _ =>
          if !escaped && ch == (if single then '\'' else '"') then some (text, after.skip)
          else
            (readGap 0 (after.rest.length + 1) { broken := escaped } after).bind
              fun (gap, next) => readQuotedFrom single fuel (text ++ gap.text) next

/-- A quoted scalar with its quotes. -/
def readQuoted (single : Bool) (c : Cursor) : Scanned (List Char) :=
  readQuotedFrom single (c.rest.length + 1) [] c.skip

/-! ### Block scalars -/

/-- What happens to the line breaks at the end of a block scalar. -/
inductive Chomp where
  | clip
  | strip
  | keep
deriving DecidableEq

/-- The mark of what happens to the line breaks at the end. -/
def readChomp (c : Cursor) : Chomp × Cursor :=
  match c.head? with
  | some '+' => (.keep, c.skip)
  | some '-' => (.strip, c.skip)
  | _ => (.clip, c)

/-- The mark of an indentation, which is not zero. -/
def readIncrement (c : Cursor) : Scanned (Option Nat) :=
  match c.head? with
  | some ch =>
    if ch = '0' then none
    else if ch.isDigit then some (some (ch.toNat - '0'.toNat), c.skip)
    else some (none, c)
  | none => some (none, c)

/-- The marks behind the indicator of a block scalar, in either order. -/
def readBlockMarks (c : Cursor) : Scanned (Chomp × Option Nat) :=
  match readChomp c with
  | (.clip, _) =>
    (readIncrement c).map fun (increment, c) =>
      match increment with
      | none => ((.clip, none), c)
      | some n =>
        let (chomp, c) := readChomp c
        ((chomp, some n), c)
  | (chomp, c) => (readIncrement c).map fun (increment, c) => ((chomp, increment), c)

/-- The blank lines before a line of a block, whose indentation is `indent`, or not known yet; the
breaks, the widest indentation, and the cursor at the line. -/
def readBlankLines (indent : Option Nat) : (fuel : Nat) → (widest : Nat) → (breaks : List Char) →
    Cursor → Scanned (List Char × Nat)
  | 0, widest, breaks, c => some ((breaks, widest), c)
  | fuel + 1, widest, breaks, c =>
    let wanted := match indent with
      | some n => n - c.column
      | none => c.rest.length
    let c := c.skipMany (min wanted (c.rest.takeWhile (· == ' ')).length)
    let widest := max widest c.column
    let inside := match indent with
      | some n => c.column < n
      | none => true
    if inside && c.head? == some '\t' then none
    else if c.rest.head?.any isBreak then
      let (text, c) := c.readLine
      readBlankLines indent fuel widest (breaks ++ text) c
    else some ((breaks, widest), c)

/-- The lines of a block behind some of them; `last` is the break behind the line before, `blank`
says whether that line started with a gap. -/
def readBlockLines (folded : Bool) (indent : Nat) : (fuel : Nat) →
    (text last breaks : List Char) → (blank : Bool) → Cursor →
    Scanned (List Char × List Char × List Char)
  | 0, text, last, breaks, _, c => some ((text, last, breaks), c)
  | fuel + 1, text, last, breaks, blank, c =>
    if c.column != indent || c.rest.isEmpty then some ((text, last, breaks), c)
    else
      let gapFirst := c.rest.head?.any isGap
      let joint :=
        if folded && last.head? == some '\n' && !blank && !gapFirst then
          (if breaks.isEmpty then [' '] else [])
        else last
      let (line, c) := c.takeWhile (fun ch => !isBreak ch)
      let (last, c) := c.readLine
      let text := text ++ joint ++ breaks ++ line
      (readBlankLines (some indent) (c.rest.length + 1) 0 [] c).bind fun ((breaks, _), c) =>
        readBlockLines folded indent fuel text last breaks gapFirst c

/-- A block scalar with its indicator; `outer` is the indentation around it, if there is any. -/
def readBlock (folded : Bool) (outer : Option Nat) (c : Cursor) : Scanned (List Char) :=
  (readBlockMarks c.skip).bind fun ((chomp, increment), c) =>
    let c := (c.skipWhile isGap).skipComment
    if !atLineEnd c.rest then none
    else
      let c := c.skipLine
      let fixed := increment.map fun n => outer.getD 0 + n
      (readBlankLines fixed (c.rest.length + 1) 0 [] c).bind fun ((breaks, widest), c) =>
        let least := match outer with
          | some n => n + 1
          | none => 0
        let indent := fixed.getD (max 1 (max widest least))
        (readBlockLines folded indent (c.rest.length + 1) [] [] breaks false c).map
          fun ((text, last, breaks), c) =>
            match chomp with
            | .strip => (text, c)
            | .clip => (text ++ last, c)
            | .keep => (text ++ last ++ breaks, c)

end Runbook.Yaml
