import Runbook.Shell.Format
import Runbook.Storage.Disk
/-!
# Utilities

Small programs that every host has:

* `Done` — what a program has written, its status and the disk it leaves;
* `test?` — the conditions of `test`;
* `utility?` — the program of a name.
-/

namespace Runbook.Shell

/-- What a program has written, its status, and the disk it leaves. -/
structure Done where
  output : List UInt8 := []
  errors : List UInt8 := []
  status : Nat := 0
  disk : Disk

/-- A line of text as bytes. -/
def lineBytes (text : String) : List UInt8 :=
  Text.Utf8.ofString (text ++ "\n")

/-! ### Conditions -/

/-- What a path names, if anything. -/
def entryAt? (disk : Disk) (path : String) : Option Entry :=
  match disk.locate path with
  | .ok place => disk.entry? place
  | .error _ => none

/-- A comparison of integers. -/
def compareIntegers? (sign : String) (a b : Int) : Option Bool :=
  match sign with
  | "-eq" => some (a == b)
  | "-ne" => some (a != b)
  | "-lt" => some (decide (a < b))
  | "-le" => some (decide (a ≤ b))
  | "-gt" => some (decide (b < a))
  | "-ge" => some (decide (b ≤ a))
  | _ => none

/-- The value of a condition; none if it is none. -/
def test? (disk : Disk) : List String → Option Bool
  | [] => some false
  | ["!"] => some true
  | "!" :: rest => (test? disk rest).map (!·)
  | [word] => some (!word.isEmpty)
  | [sign, word] =>
    match sign with
    | "-n" => some (!word.isEmpty)
    | "-z" => some word.isEmpty
    | "-e" => some (entryAt? disk word).isSome
    | "-f" => some ((entryAt? disk word).any (· != .directory))
    | "-d" => some (entryAt? disk word == some .directory)
    | "-s" =>
      some (match entryAt? disk word with
        | some (.file bytes) => !bytes.isEmpty
        | some .directory => true
        | none => false)
    | _ => none
  | [a, sign, b] =>
    if sign = "=" then some (a == b)
    else if sign = "!=" then some (a != b)
    else
      (readInteger? a).bind fun a => (readInteger? b).bind fun b => compareIntegers? sign a b
  | _ => none

/-! ### Programs -/

/-- The options of `echo`: whether the line ends, and whether escapes are replaced. -/
def echoOptions (newline escapes : Bool) : List String → Bool × Bool × List String
  | [] => (newline, escapes, [])
  | word :: rest =>
    match word.toList with
    | '-' :: c :: cs =>
      let letters := c :: cs
      if letters.all fun l => l == 'n' || l == 'e' || l == 'E' then
        let newline := newline && !letters.contains 'n'
        let escapes := letters.foldl
          (fun e l => if l = 'e' then true else if l = 'E' then false else e) escapes
        echoOptions newline escapes rest
      else (newline, escapes, word :: rest)
    | _ => (newline, escapes, word :: rest)

/-- Words with single spaces between them. -/
def spaced (words : List String) : List Char :=
  Text.joinWith [' '] (words.map String.toList)

/-- What `echo` writes as a program of its own. -/
def echoProgram (words : List String) : List UInt8 :=
  let (newline, escapes, words) := echoOptions true false words
  let text := spaced words
  let (bytes, ended) :=
    if escapes then unescape (text.length + 1) text else (Text.Utf8.encode text, false)
  if newline && !ended then bytes ++ [10] else bytes

/-- What `echo` writes inside a shell, which always replaces escapes. -/
def echoBuiltin (words : List String) : List UInt8 :=
  let (newline, words) := match words with
    | "-n" :: rest => (false, rest)
    | words => (true, words)
  let text := spaced words
  let (bytes, ended) := unescape (text.length + 1) text
  if newline && !ended then bytes ++ [10] else bytes

/-- The contents of several files; `-` and no name at all stand for the input. -/
def concatenate (disk : Disk) (input : List UInt8) (paths : List String) : Done :=
  let one (d : Done) (path : String) : Done :=
    if path = "-" then { d with output := d.output ++ input }
    else
      match disk.read path with
      | .ok bytes => { d with output := d.output ++ bytes }
      | .error e =>
        let reason := String.ofList (((Text.splitOn " (os".toList e.message.toList).head?).getD [])
        { d with errors := d.errors ++ lineBytes ("cat: " ++ path ++ ": " ++ reason), status := 1 }
  if paths.isEmpty then { output := input, disk } else paths.foldl one { disk }

/-- Create files that do not exist. -/
def touch (disk : Disk) (paths : List String) : Done :=
  let one (d : Done) (path : String) : Done :=
    if (entryAt? d.disk path).isSome then d
    else
      match d.disk.write path [] with
      | .ok disk => { d with disk }
      | .error _ =>
        { d with
          errors := d.errors ++ lineBytes ("touch: cannot touch '" ++ path ++
            "': No such file or directory")
          status := 1 }
  paths.foldl one { disk }

/-- The program of a name, applied to words, an environment and an input. -/
def utility? (name : String) (words : List String) (environment : List (String × String))
    (input : List UInt8) (disk : Disk) : Option Done :=
  match name with
  | "true" => some { disk }
  | "false" => some { status := 1, disk }
  | "echo" => some { output := echoProgram words, disk }
  | "printf" =>
    match words with
    | [] => some { errors := lineBytes "printf: missing operand", status := 1, disk }
    | format :: words =>
      let (output, sound) := printf format words
      some { output, status := if sound then 0 else 1, disk }
  | "cat" => some (concatenate disk input words)
  | "test" => some { status := testStatus words, disk }
  | "[" =>
    if words.getLast? = some "]" then some { status := testStatus words.dropLast, disk }
    else some { errors := lineBytes "[: missing ]", status := 2, disk }
  | "sleep" => some { disk }
  | "printenv" =>
    let values := words.filterMap fun word => environment.lookup word
    some { output := values.flatMap lineBytes
           status := if values.length = words.length then 0 else 1, disk }
  | "touch" => some (touch disk words)
  | "mkdir" =>
    let paths := words.filter fun w => w.toList.head? != some '-'
    some { disk := paths.foldl Disk.makeDirectories disk }
  | _ => none
where
  /-- The status of a condition. -/
  testStatus (words : List String) : Nat :=
    match test? disk words with
    | some true => 0
    | some false => 1
    | none => 2

end Runbook.Shell
