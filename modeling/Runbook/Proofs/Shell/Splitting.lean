import Mathlib.Data.List.Basic
import Runbook.Shell.Word
/-!
# Command lines and their words

A shell cuts a command line into words before it does anything else.  This file says how it does so
where the line holds nothing but words, and what it meets where the line holds more than that.

* `Shell.Reader`, `Shell.Reader.step` — a reader that goes through a line character by character,
  between words, in a word, and inside quotes of both kinds;
* `Shell.Misread` — what makes a line more than words: an operator, an expansion, a comment, or
  quotes that are never closed;
* `Shell.split` — the words of a command line;
* `Shell.Reader.read_escape` — a text that was escaped is read as one word, whatever stood before
  it;
* `Shell.split_commandLine`, `Shell.split_append_escapeString` — escaped words behind one another,
  and one behind a line of other words.

Which words are assignments, reserved words or names of commands is decided on whole words, and
later than here.
-/

namespace Runbook.Shell

/-! ### How a line is read -/

/-- What a reader meets in a line that is more than words. -/
inductive Misread where
  | operator (c : Char)
  | expansion (c : Char)
  | comment
  | unclosed
deriving DecidableEq, Repr

/-- Where a reader stands: between two words, in a word outside of quotes, inside single or double
quotes, or behind a backslash outside of quotes or between double ones. -/
inductive Place where
  | between
  | word
  | single
  | double
  | escape (started : Bool)
  | doubleEscape
deriving DecidableEq, Repr

/-- A reader: its place, the words that it has read, and the word that it reads. -/
structure Reader where
  place : Place := .between
  words : List (List Char) := []
  word : List Char := []
deriving DecidableEq, Repr

/-- A blank between words. -/
def isWordBreak (c : Char) : Bool :=
  " \t".toList.contains c

/-- A character that is an operator, or starts one, when it is not quoted; a line break ends a
command. -/
def isOperator (c : Char) : Bool :=
  "&|;<>()\n".toList.contains c

/-- A character that is replaced, with what follows it, between double quotes too: the sign of a
parameter, and that of a command. -/
def isActive (c : Char) : Bool :=
  "$\x60".toList.contains c

/-- A character that may be replaced when it is not quoted: besides the active ones, those of
patterns of file names, home directories, lists in braces, and earlier commands.  Shells replace
some of them only in certain places; here they are refused everywhere. -/
def isExpansion (c : Char) : Bool :=
  isActive c || "*?[]~\x7b\x7d!^".toList.contains c

namespace Reader

/-- Take a character into the word. -/
def take (c : Char) (r : Reader) : Reader :=
  { r with word := r.word ++ [c] }

/-- Go on at another place. -/
def goTo (place : Place) (r : Reader) : Reader :=
  { r with place }

/-- The words with the one that has been read; there is none between two words. -/
def endWord (r : Reader) : Reader :=
  if r.place = .word then { words := r.words ++ [r.word] } else { words := r.words }

/-- A character outside of quotes that does not end a word. -/
def stepPlain (r : Reader) (c : Char) : Except Misread Reader :=
  if c = '\'' then .ok (r.goTo .single)
  else if c = '"' then .ok (r.goTo .double)
  else if c = '\\' then .ok (r.goTo (.escape (r.place == .word)))
  else if isOperator c then .error (.operator c)
  else if isExpansion c then .error (.expansion c)
  else .ok ((r.take c).goTo .word)

/-- One character.  A backslash in front of a line break goes with it; between double quotes it
stays in front of any other character that it does not quote. -/
def step (r : Reader) (c : Char) : Except Misread Reader :=
  match r.place with
  | .between =>
    if isWordBreak c then .ok r.endWord
    else if c = '#' then .error .comment
    else r.stepPlain c
  | .word => if isWordBreak c then .ok r.endWord else r.stepPlain c
  | .single => .ok (if c = '\'' then r.goTo .word else r.take c)
  | .double =>
    if c = '"' then .ok (r.goTo .word)
    else if c = '\\' then .ok (r.goTo .doubleEscape)
    else if isActive c then .error (.expansion c)
    else .ok (r.take c)
  | .escape started =>
    .ok (if c = '\n' then r.goTo (if started then .word else .between) else (r.take c).goTo .word)
  | .doubleEscape =>
    if c = '\n' then .ok (r.goTo .double)
    else if isActive c || c == '"' || c == '\\' then .ok ((r.take c).goTo .double)
    else .ok (((r.take '\\').take c).goTo .double)

/-- The words at the end of a line. -/
def finish (r : Reader) : Except Misread (List (List Char)) :=
  match r.place with
  | .between | .word => .ok r.endWord.words
  | _ => .error .unclosed

/-- Read a text. -/
def read (r : Reader) (cs : List Char) : Except Misread Reader :=
  cs.foldlM step r

end Reader

/-- The words of a command line, without their quotes. -/
def split (line : String) : Except Misread (List String) :=
  ((({} : Reader).read line.toList).bind Reader.finish).map (·.map String.ofList)

/-- Quotes of both kinds and a backslash in one word, and an empty word. -/
example : split "a'b c'\"d\"\\ e ''" = .ok ["ab cd e", ""] := by decide +kernel

/-- Between double quotes a parameter is replaced. -/
example : split "echo \"$HOME\"" = .error (.expansion '$') := by decide +kernel

/-- A second command is more than words. -/
example : split "echo a; rm b" = .error (.operator ';') := by decide +kernel

/-! ### Escaped texts -/

namespace Reader

theorem read_append (r : Reader) (cs more : List Char) :
    r.read (cs ++ more) = (r.read cs).bind (·.read more) :=
  List.foldlM_append

theorem read_cons (r : Reader) (c : Char) (cs : List Char) :
    r.read (c :: cs) = (r.step c).bind (·.read cs) :=
  rfl

/-- A plain character is none of those that mean something else. -/
theorem contains_eq_false_of_isPlain {c : Char} (h : isPlain c = true) {special : List Char}
    (hspecial : (special.all fun d => !isPlain d) = true) : special.contains c = false := by
  rw [Bool.eq_false_iff, Ne, List.contains_iff_mem]
  intro hc
  have hother := List.all_eq_true.1 hspecial c hc
  rw [h] at hother
  cases hother

/-- A plain character means nothing but itself, wherever it stands outside of quotes. -/
theorem step_of_isPlain {c : Char} (h : isPlain c = true) {r : Reader}
    (hplace : r.place = .between ∨ r.place = .word) : r.step c = .ok ((r.take c).goTo .word) := by
  have hne : ∀ d, isPlain d = false → c ≠ d := by
    rintro d hd rfl
    rw [hd] at h
    cases h
  have hbreak : isWordBreak c = false := contains_eq_false_of_isPlain h (by decide)
  have hoperator : isOperator c = false := contains_eq_false_of_isPlain h (by decide)
  have hactive : isActive c = false := contains_eq_false_of_isPlain h (by decide)
  have hpattern := contains_eq_false_of_isPlain h
    (show ("*?[]~\x7b\x7d!^".toList.all fun d => !isPlain d) = true by decide)
  have hplain : r.stepPlain c = .ok ((r.take c).goTo .word) := by
    rw [stepPlain, if_neg (hne _ (by decide)), if_neg (hne _ (by decide)),
      if_neg (hne _ (by decide)), hoperator, isExpansion, hactive, hpattern]
    rfl
  unfold step
  rcases hplace with hplace | hplace
  · rw [hplace, hbreak]
    exact (if_neg (hne _ (by decide))).trans hplain
  · rw [hplace, hbreak]
    exact hplain

/-- Plain characters in a word. -/
theorem read_of_isPlain {cs : List Char} (h : ∀ c ∈ cs, isPlain c = true)
    (words : List (List Char)) (word : List Char) :
    ({ place := .word, words, word } : Reader).read cs
      = .ok { place := .word, words, word := word ++ cs } := by
  induction cs generalizing word with
  | nil => rw [List.append_nil]; rfl
  | cons c cs ih =>
    rw [read_cons, step_of_isPlain (h c List.mem_cons_self) (.inr rfl)]
    have hrest := ih (fun d hd => h d (List.mem_cons_of_mem c hd)) (word ++ [c])
    rwa [List.append_assoc] at hrest

/-- What stands between single quotes: a single quote leaves them, is quoted by double quotes, and
enters them again. -/
theorem read_flatMap_escapeChar (cs : List Char) (words : List (List Char)) (word : List Char) :
    ({ place := .single, words, word } : Reader).read (cs.flatMap escapeChar)
      = .ok { place := .single, words, word := word ++ cs } := by
  induction cs generalizing word with
  | nil => rw [List.append_nil]; rfl
  | cons c cs ih =>
    have hchar : ({ place := .single, words, word } : Reader).read (escapeChar c)
        = .ok { place := .single, words, word := word ++ [c] } := by
      by_cases hc : c = '\''
      · subst hc
        rfl
      · rw [escapeChar, if_neg hc, read_cons]
        simp [step, hc, take, read, Except.bind, pure, Except.pure]
    rw [List.flatMap_cons, read_append, hchar]
    have hrest := ih (word ++ [c])
    rwa [List.append_assoc] at hrest

/-- **An escaped text is one word.**  A reader that stands between two words and reads it has the
text as its word. -/
theorem read_escape (cs : List Char) (words : List (List Char)) :
    ({ words } : Reader).read (escape cs) = .ok { place := .word, words, word := cs } := by
  rw [escape]
  split
  · next h =>
    obtain ⟨hne, hplain⟩ := h
    rw [List.all_eq_true] at hplain
    obtain ⟨c, cs, rfl⟩ := List.exists_cons_of_ne_nil hne
    rw [read_cons, step_of_isPlain (hplain c List.mem_cons_self) (.inl rfl)]
    exact read_of_isPlain (fun d hd => hplain d (List.mem_cons_of_mem c hd)) words [c]
  · have hopen : ({ words } : Reader).step '\'' = .ok { place := .single, words } := rfl
    rw [read_cons, hopen]
    show ({ place := .single, words } : Reader).read (cs.flatMap escapeChar ++ ['\'']) = _
    rw [read_append, read_flatMap_escapeChar]
    rfl

/-- Escaped texts behind one another, with blanks between them. -/
theorem read_joinWith (texts words : List (List Char)) :
    (({ words } : Reader).read (Text.joinWith [' '] (texts.map escape))).bind finish
      = .ok (words ++ texts) := by
  induction texts generalizing words with
  | nil => rw [List.append_nil]; rfl
  | cons text texts ih =>
    cases texts with
    | nil =>
      show (({ words } : Reader).read (escape text)).bind finish = _
      rw [read_escape]
      rfl
    | cons next texts =>
      show (({ words } : Reader).read (escape text ++ [' ']
        ++ Text.joinWith [' '] ((next :: texts).map escape))).bind finish = _
      have hblank : ({ place := .word, words, word := text } : Reader).read [' ']
          = .ok { words := words ++ [text] } := rfl
      rw [read_append, read_append, read_escape]
      show ((({ place := .word, words, word := text } : Reader).read [' ']).bind _).bind finish = _
      rw [hblank]
      have hrest := ih (words ++ [text])
      rwa [List.append_assoc] at hrest

/-- Behind a line that was read to its end, a blank starts another word. -/
theorem read_blank {r : Reader} {words : List (List Char)} (h : r.finish = .ok words) :
    r.read [' '] = .ok { words } := by
  obtain ⟨place, done, word⟩ := r
  cases place <;> cases h <;> rfl

end Reader

theorem split_eq_ok {line : String} {words : List String} :
    split line = .ok words ↔ ∃ r texts, ({} : Reader).read line.toList = .ok r ∧
      r.finish = .ok texts ∧ texts.map String.ofList = words := by
  unfold split
  constructor
  · intro h
    rcases hread : ({} : Reader).read line.toList with e | r
    · rw [hread] at h
      cases h
    · rw [hread] at h
      change (r.finish).map _ = _ at h
      rcases hfinish : r.finish with e | texts
      · rw [hfinish] at h
        cases h
      · rw [hfinish] at h
        exact ⟨r, texts, rfl, hfinish, Except.ok.inj h⟩
  · rintro ⟨r, texts, hread, hfinish, rfl⟩
    rw [hread]
    show (r.finish).map _ = _
    rw [hfinish]
    rfl

/-- **The words of a command line are the ones that it was made of.** -/
theorem split_commandLine (words : List String) : split (commandLine words) = .ok words := by
  have hread := Reader.read_joinWith (words.map String.toList) []
  rw [List.map_map] at hread
  rw [split, commandLine, String.toList_ofList]
  refine (congrArg (·.map (·.map String.ofList)) hread).trans (congrArg Except.ok ?_)
  simp [Function.comp_def]

/-- A text that is escaped behind a line of words is one more word. -/
theorem split_append_escapeString {line : String} {words : List String}
    (h : split line = .ok words) (text : String) :
    split (line ++ " " ++ escapeString text) = .ok (words ++ [text]) := by
  obtain ⟨r, texts, hread, hfinish, rfl⟩ := split_eq_ok.1 h
  refine split_eq_ok.2 ⟨{ place := .word, words := texts, word := text.toList },
    texts ++ [text.toList], ?_, rfl, by simp⟩
  have hblank : r.read " ".toList = .ok { words := texts } := Reader.read_blank hfinish
  rw [String.toList_append, String.toList_append, Reader.read_append, Reader.read_append, hread]
  show ((r.read " ".toList).bind _) = _
  rw [hblank, escapeString, String.toList_ofList]
  exact Reader.read_escape text.toList texts

/-- A text that is escaped is one word. -/
theorem split_escapeString (text : String) : split (escapeString text) = .ok [text] :=
  split_eq_ok.2 ⟨{ place := .word, word := text.toList }, [text.toList],
    by rw [escapeString, String.toList_ofList]; exact Reader.read_escape text.toList [], rfl,
    by simp⟩

end Runbook.Shell
