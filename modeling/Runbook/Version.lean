import Runbook.Text.Blank
import Runbook.Decimal.Reading
/-!
# Versions

Versions in the `major.minor.patch-pre+build` form and their precedence:

* `Version.parse?` — reads a whole version, with all of its three numbers;
* `Version.ofText?` — reads a version leniently: blanks around it and one leading `v` are dropped,
  and a core without a minor or a patch number is padded with zeros before it is read;
* `Version.text` — the canonical text;
* `Version.compare` — precedence: numbers first, a pre-release before its release, pre-release
  identifiers one by one, and build metadata ignored.
-/

namespace Runbook

/-- A version; pre-release and build metadata are lists of dot-separated identifiers. -/
structure Version where
  major : Nat
  minor : Nat
  patch : Nat
  pre : List (List Char)
  build : List (List Char)
deriving DecidableEq, Repr

namespace Version

/-- A character of an identifier. -/
def isMark (c : Char) : Bool :=
  c.isAlphanum || c == '-'

/-- An identifier made of digits only. -/
def isNumeric (part : List Char) : Bool :=
  part.all Char.isDigit

/-- A digit list of more than one digit that starts with zero. -/
def hasLeadingZero : List Char → Bool
  | '0' :: _ :: _ => true
  | _ => false

/-- An identifier of build metadata. -/
def isBuildPart (part : List Char) : Bool :=
  !part.isEmpty && part.all isMark

/-- An identifier of a pre-release: a numeric one has no leading zero. -/
def isPrePart (part : List Char) : Bool :=
  isBuildPart part && !(isNumeric part && hasLeadingZero part)

/-- A component of the core: digits without a leading zero that fit in a 64-bit word. -/
def readNumber? (part : List Char) : Option Nat :=
  if part.isEmpty || !isNumeric part || hasLeadingZero part then none
  else
    let n := Decimal.runValue part
    if n < Nat.pow 2 64 then some n else none

/-- The three numbers of a core. -/
def readCore? (core : List Char) : Option (Nat × Nat × Nat) :=
  match Text.splitBy (· == '.') core with
  | [a, b, c] =>
    (readNumber? a).bind fun a => (readNumber? b).bind fun b =>
      (readNumber? c).map fun c => (a, b, c)
  | _ => none

/-- The identifiers of a dotted text, if each has the property `ok`. -/
def readParts? (ok : List Char → Bool) (cs : List Char) : Option (List (List Char)) :=
  let parts := Text.splitBy (· == '.') cs
  if parts.all ok then some parts else none

/-- The pre-release and build metadata behind the core. -/
def readTail? : List Char → Option (List (List Char) × List (List Char))
  | [] => some ([], [])
  | c :: cs =>
    if c = '-' then
      match Text.splitAtFirst? (· == '+') cs with
      | none => (readParts? isPrePart cs).map fun pre => (pre, [])
      | some (pre, build) =>
        (readParts? isPrePart pre).bind fun pre =>
          (readParts? isBuildPart build).map fun build => (pre, build)
    else if c = '+' then (readParts? isBuildPart cs).map fun build => ([], build)
    else none

/-- Where the core ends. -/
def endsCore (c : Char) : Bool :=
  c == '-' || c == '+'

/-- The core at the start of a text. -/
def coreOf (cs : List Char) : List Char :=
  cs.takeWhile fun c => !endsCore c

/-- What stands behind the core. -/
def tailOf (cs : List Char) : List Char :=
  cs.dropWhile fun c => !endsCore c

/-- A whole version, with all of its numbers. -/
def parse? (cs : List Char) : Option Version :=
  (readCore? (coreOf cs)).bind fun (major, minor, patch) =>
    (readTail? (tailOf cs)).map fun (pre, build) => { major, minor, patch, pre, build }

/-- Drop one leading `v`. -/
def dropMark : List Char → List Char
  | c :: cs => if c = 'v' ∨ c = 'V' then cs else c :: cs
  | [] => []

/-- Zeros for the components that a core has less than three. -/
def padding (core : List Char) : List Char :=
  (List.replicate (3 - (Text.splitBy (· == '.') core).length) ['.', '0']).flatten

/-- A text as a version, whose core is padded to three components. -/
def ofChars? (cs : List Char) : Option Version :=
  let cs := dropMark (Text.trim cs)
  parse? (coreOf cs ++ padding (coreOf cs) ++ tailOf cs)

/-- A text as a version. -/
def ofText? (s : String) : Option Version :=
  ofChars? s.toList

/-- Identifiers joined by dots, behind a mark unless there are none. -/
def partsText (mark : Char) (parts : List (List Char)) : List Char :=
  if parts.isEmpty then [] else mark :: Text.joinWith ['.'] parts

/-- The canonical text. -/
def text (v : Version) : String :=
  Text.natText v.major ++ "." ++ Text.natText v.minor ++ "." ++ Text.natText v.patch
    ++ String.ofList (partsText '-' v.pre ++ partsText '+' v.build)

/-! ### Precedence -/

/-- Lexicographic order of texts by code point. -/
def compareText : List Char → List Char → Ordering
  | [], [] => .eq
  | [], _ :: _ => .lt
  | _ :: _, [] => .gt
  | a :: as, b :: bs => (compare a.toNat b.toNat).then (compareText as bs)

/-- Numeric identifiers by value, others by text, and a numeric one before any other. -/
def comparePart (a b : List Char) : Ordering :=
  match isNumeric a, isNumeric b with
  | true, true => (compare a.length b.length).then (compareText a b)
  | true, false => .lt
  | false, true => .gt
  | false, false => compareText a b

/-- Identifier by identifier; a proper beginning comes first. -/
def compareParts : List (List Char) → List (List Char) → Ordering
  | [], [] => .eq
  | [], _ :: _ => .lt
  | _ :: _, [] => .gt
  | a :: as, b :: bs => (comparePart a b).then (compareParts as bs)

/-- Pre-releases come before the release. -/
def comparePre (a b : List (List Char)) : Ordering :=
  match a, b with
  | [], [] => .eq
  | [], _ :: _ => .gt
  | _ :: _, [] => .lt
  | a, b => compareParts a b

/-- Precedence of versions. -/
def compare (v w : Version) : Ordering :=
  (Ord.compare v.major w.major).then <|
    (Ord.compare v.minor w.minor).then <|
      (Ord.compare v.patch w.patch).then (comparePre v.pre w.pre)

end Version

end Runbook
