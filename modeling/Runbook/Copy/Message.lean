import Runbook.Storage.Error
import Runbook.Text.Blank
import Runbook.Text.Utf8
/-!
# Messages of the copy protocol

A sender announces a file, sends its contents and a mark at their end; the receiver answers the
announcement and the contents with one response each:

* `fileHeader`, `endMarker` — what the sender writes before and after the contents;
* `baseName` — the last element of a path, under which a file is announced;
* `Response` — an answer: one byte for success, or one byte and a line of text;
* `Response.read` — reads one answer from a stream, and nothing behind it;
* `Response.encode` — the bytes of an answer.
-/

namespace Runbook.Copy

/-- The byte after the contents. -/
def endMarker : UInt8 := 0

/-- The line that announces a file. -/
def fileHeader (permissions : String) (size : Nat) (name : String) : String :=
  "C" ++ permissions ++ " " ++ Text.natText size ++ " " ++ name ++ "\n"

/-- The last element of a path without its trailing slashes. -/
def baseName (path : String) : String :=
  let kept := path.toList.reverse.dropWhile (· == '/')
  if kept.isEmpty then (if path.isEmpty then "." else "/")
  else String.ofList (kept.takeWhile (· != '/')).reverse

/-- What a response says of the message before it. -/
inductive Verdict where
  | success
  | warning
  | error
deriving DecidableEq, Repr

/-- An answer of the receiver. -/
structure Response where
  verdict : Verdict
  message : String
deriving DecidableEq, Repr

namespace Response

/-- Whether the sender has to give up. -/
def isFailure (r : Response) : Bool :=
  r.verdict != .success

/-- The newline that ends a message. -/
def newline : UInt8 := 10

/-- A stream that starts with a byte that is no verdict. -/
def unknownVerdict (b : UInt8) : IoError :=
  ⟨.invalidData, "unknown response type " ++ Text.natText b.toNat⟩

/-- The bytes of a line and those behind its newline. -/
def splitLine? : List UInt8 → Option (List UInt8 × List UInt8)
  | [] => none
  | b :: rest =>
    if b = newline then some ([], rest)
    else (splitLine? rest).map fun (line, rest) => (b :: line, rest)

/-- The message behind the first byte of a response. -/
def readMessage (verdict : Verdict) (bytes : List UInt8) :
    Except IoError Response × List UInt8 :=
  match splitLine? bytes with
  | some (line, rest) => (.ok ⟨verdict, Text.Utf8.toStringLossy line⟩, rest)
  | none => (.error .unexpectedEnd, [])

/-- Read one response; the second component is what is left of the stream. -/
def read : List UInt8 → Except IoError Response × List UInt8
  | [] => (.error .unexpectedEnd, [])
  | b :: rest =>
    if b = 0 then (.ok ⟨.success, ""⟩, rest)
    else if b = 1 then readMessage .warning rest
    else if b = 2 then readMessage .error rest
    else (.error (unknownVerdict b), rest)

/-- Whether a stream holds all bytes that reading one response takes. -/
def isComplete : List UInt8 → Bool
  | [] => false
  | b :: rest => if b = 1 ∨ b = 2 then rest.contains newline else true

/-- The bytes of a response. -/
def encode (r : Response) : List UInt8 :=
  match r.verdict with
  | .success => [0]
  | .warning => 1 :: Text.Utf8.ofString r.message ++ [newline]
  | .error => 2 :: Text.Utf8.ofString r.message ++ [newline]

end Response

end Runbook.Copy
