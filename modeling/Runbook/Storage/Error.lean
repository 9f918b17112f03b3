/-!
# Errors of files and streams

* `IoKind` — what went wrong, as a program may ask;
* `IoError` — a kind with its text;
* the errors of the host's file system, each with its number.
-/

namespace Runbook

/-- The kind of a file or stream error. -/
inductive IoKind where
  | notFound
  | permissionDenied
  | unexpectedEnd
  | invalidData
  | invalidInput
  | isDirectory
  | notDirectory
  | invalidFilename
  | invalidProgram
  | brokenPipe
  | argumentListTooLong
  | other
deriving DecidableEq, Repr

/-- A file or stream error. -/
structure IoError where
  kind : IoKind
  message : String
deriving DecidableEq, Repr

namespace IoError

/-- An error of the host, with its number. -/
def host (kind : IoKind) (what : String) (number : Nat) : IoError :=
  ⟨kind, what ++ " (os error " ++ toString number ++ ")"⟩

/-- No such file. -/
def missing : IoError := host .notFound "No such file or directory" 2

/-- The arguments of a process take too much room. -/
def tooManyArguments : IoError := host .argumentListTooLong "Argument list too long" 7

/-- A file that is no program. -/
def notProgram : IoError := host .invalidProgram "Exec format error" 8

/-- A file that may not be used this way. -/
def denied : IoError := host .permissionDenied "Permission denied" 13

/-- A file where a directory is needed. -/
def notDirectory : IoError := host .notDirectory "Not a directory" 20

/-- A directory where a file is needed. -/
def isDirectory : IoError := host .isDirectory "Is a directory" 21

/-- A name that is too long. -/
def longName : IoError := host .invalidFilename "File name too long" 36

/-- A path that holds a null character. -/
def nullInPath : IoError :=
  ⟨.invalidInput, "file name contained an unexpected NUL byte"⟩

/-- A program name or argument that holds a null character. -/
def nullInArgument : IoError := ⟨.invalidInput, "nul byte found in provided data"⟩

/-- A stream that ends too early. -/
def unexpectedEnd : IoError := ⟨.unexpectedEnd, "failed to fill whole buffer"⟩

/-- A file that should hold text and does not. -/
def notText : IoError := ⟨.invalidData, "stream did not contain valid UTF-8"⟩

end IoError

end Runbook
