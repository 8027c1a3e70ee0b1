/-!
# Errors of the operating system

What can go wrong when a file is opened or a program is started, with the texts in which reports name
it. An error that the system itself reports is named with its number.
-/

namespace Conformance

/-- Why an operation on the system failed. -/
inductive IoError where
  | noEntry
  | badFormat
  | badDescriptor
  | denied
  | alreadyExists
  | notDirectory
  | isDirectory
  | brokenPipe
  | nameTooLong
  | notEmpty
  | tooManyLinks
  /-- The bytes of a text file are no text. -/
  | invalidText
  /-- The name of a file holds a NUL. -/
  | nulInName
  /-- The name of a program, or one of its arguments, holds a NUL. -/
  | nulInCommand
  /-- Anything else, by its text. -/
  | other (text : String)
  deriving DecidableEq, Repr

namespace IoError

/-- The system's number and text of an error, if it is one of the system's. -/
def systemText? : IoError → Option (Nat × String)
  | .noEntry => some (2, "No such file or directory")
  | .badFormat => some (8, "Exec format error")
  | .badDescriptor => some (9, "Bad file descriptor")
  | .denied => some (13, "Permission denied")
  | .alreadyExists => some (17, "File exists")
  | .notDirectory => some (20, "Not a directory")
  | .isDirectory => some (21, "Is a directory")
  | .brokenPipe => some (32, "Broken pipe")
  | .nameTooLong => some (36, "File name too long")
  | .notEmpty => some (39, "Directory not empty")
  | .tooManyLinks => some (40, "Too many levels of symbolic links")
  | .invalidText | .nulInName | .nulInCommand | .other _ => none

def message (e : IoError) : String :=
  match e.systemText? with
  | some (number, text) => text ++ " (os error " ++ toString number ++ ")"
  | none =>
    match e with
    | .invalidText => "stream did not contain valid UTF-8"
    | .nulInName => "file name contained an unexpected NUL byte"
    | .nulInCommand => "nul byte found in provided data"
    | .other text => text
    | _ => ""

end IoError

end Conformance
