import Runbook.Text.Blank
/-!
# Shell words

Text as one word of a command line:

* `isPlain` — the characters that mean only themselves to a shell;
* `escape` — a text as one word: as it stands if all its characters are plain, between single
  quotes otherwise, where a single quote is written outside of them between double quotes;
* `commandLine` — words separated by single spaces.
-/

namespace Runbook.Shell

/-- A character that means only itself to a shell. -/
def isPlain (c : Char) : Bool :=
  c.isAlphanum || "_@%+=:,./-".toList.contains c

/-- One character between single quotes. -/
def escapeChar (c : Char) : List Char :=
  if c = '\'' then ['\'', '"', '\'', '"', '\''] else [c]

/-- A text as one word. -/
def escape (cs : List Char) : List Char :=
  if cs ≠ [] ∧ cs.all isPlain then cs else '\'' :: (cs.flatMap escapeChar ++ ['\''])

/-- A string as one word. -/
def escapeString (s : String) : String :=
  String.ofList (escape s.toList)

/-- Words separated by single spaces. -/
def commandLine (words : List String) : String :=
  String.ofList (Text.joinWith [' '] (words.map fun w => escape w.toList))

end Runbook.Shell
