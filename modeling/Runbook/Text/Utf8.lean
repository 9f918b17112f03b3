/-!
# UTF-8

Bytes and characters:

* `encode` — the UTF-8 bytes of a character list;
* `scan` — reads a byte list piece by piece; a piece is a character, or the longest start of a
  well-formed sequence that is not continued (`none`);
* `decode?` — the characters of well-formed UTF-8, and nothing for any other byte list;
* `decodeLossy` — total decoding: every ill-formed piece becomes one replacement character.
-/

namespace Runbook.Text.Utf8

/-- A continuation byte. -/
def isTail (b : UInt8) : Bool :=
  0x80 ≤ b && b ≤ 0xBF

/-- The bytes that may follow the first byte of a three-byte sequence. -/
def isSecondOfThree (a b : UInt8) : Bool :=
  if a == 0xE0 then 0xA0 ≤ b && b ≤ 0xBF
  else if a == 0xED then 0x80 ≤ b && b ≤ 0x9F
  else isTail b

/-- The bytes that may follow the first byte of a four-byte sequence. -/
def isSecondOfFour (a b : UInt8) : Bool :=
  if a == 0xF0 then 0x90 ≤ b && b ≤ 0xBF
  else if a == 0xF4 then 0x80 ≤ b && b ≤ 0x8F
  else isTail b

/-- The code point of a two-byte sequence. -/
def two (a b : UInt8) : Char :=
  Char.ofNat ((a.toNat - 0xC0) * 64 + (b.toNat - 0x80))

/-- The code point of a three-byte sequence. -/
def three (a b c : UInt8) : Char :=
  Char.ofNat ((a.toNat - 0xE0) * 4096 + (b.toNat - 0x80) * 64 + (c.toNat - 0x80))

/-- The code point of a four-byte sequence. -/
def four (a b c d : UInt8) : Char :=
  Char.ofNat ((a.toNat - 0xF0) * 262144 + (b.toNat - 0x80) * 4096 + (c.toNat - 0x80) * 64
    + (d.toNat - 0x80))

/-- Read a byte list piece by piece; `none` stands for a piece that is no character. -/
def scan : List UInt8 → List (Option Char)
  | [] => []
  | a :: rest =>
    if a < 0x80 then some (Char.ofNat a.toNat) :: scan rest
    else if 0xC2 ≤ a && a ≤ 0xDF then
      match rest with
      | [] => [none]
      | b :: more => if isTail b then some (two a b) :: scan more else none :: scan (b :: more)
    else if 0xE0 ≤ a && a ≤ 0xEF then
      match rest with
      | [] => [none]
      | b :: more =>
        if isSecondOfThree a b then
          match more with
          | [] => [none]
          | c :: tail =>
            if isTail c then some (three a b c) :: scan tail else none :: scan (c :: tail)
        else none :: scan (b :: more)
    else if 0xF0 ≤ a && a ≤ 0xF4 then
      match rest with
      | [] => [none]
      | b :: more =>
        if isSecondOfFour a b then
          match more with
          | [] => [none]
          | c :: tail =>
            if isTail c then
              match tail with
              | [] => [none]
              | d :: last =>
                if isTail d then some (four a b c d) :: scan last else none :: scan (d :: last)
            else none :: scan (c :: tail)
        else none :: scan (b :: more)
    else none :: scan rest

/-- All elements, if none is missing. -/
def allSome : List (Option Char) → Option (List Char)
  | [] => some []
  | none :: _ => none
  | some c :: rest => (allSome rest).map (c :: ·)

/-- The characters of well-formed UTF-8. -/
def decode? (bytes : List UInt8) : Option (List Char) :=
  allSome (scan bytes)

/-- Every ill-formed piece becomes one replacement character. -/
def decodeLossy (bytes : List UInt8) : List Char :=
  (scan bytes).map (·.getD '\ufffd')

/-- The UTF-8 bytes of a character list. -/
def encode (cs : List Char) : List UInt8 :=
  cs.flatMap String.utf8EncodeChar

/-- The UTF-8 bytes of a string. -/
def ofString (s : String) : List UInt8 :=
  s.toUTF8.toList

/-- The string of well-formed UTF-8. -/
def toString? (bytes : List UInt8) : Option String :=
  (decode? bytes).map String.ofList

/-- The string that shows a byte list, with replacement characters for ill-formed pieces. -/
def toStringLossy (bytes : List UInt8) : String :=
  String.ofList (decodeLossy bytes)

end Runbook.Text.Utf8
