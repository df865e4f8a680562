import LabExchange.Json.Record

/-!
# Failures

Why work with files goes wrong: an account of causes, from the outermost one to the one that the
file system or the reader of a text gave.
-/
namespace LabExchange

/-- Why an operation on a file failed. -/
inductive FileError where
  | notFound
  | isADirectory
  | notADirectory
  | alreadyExists
  /-- The place is in use, as that of a directory which a path names by points. -/
  | busy
  | nameTooLong
  /-- A path with a zero character, refused by the operating system. -/
  | invalidArgument
  /-- A path with a zero character, refused before the operating system is asked. -/
  | zeroInName
  deriving DecidableEq, Repr

/-- The wording of the operating system. -/
def FileError.message : FileError → String
  | notFound => "No such file or directory (os error 2)"
  | isADirectory => "Is a directory (os error 21)"
  | notADirectory => "Not a directory (os error 20)"
  | alreadyExists => "File exists (os error 17)"
  | busy => "Device or resource busy (os error 16)"
  | nameTooLong => "File name too long (os error 36)"
  | invalidArgument => "Invalid argument (os error 22)"
  | zeroInName => "file name contained an unexpected NUL byte"

/-- One step of an account of why something failed. -/
inductive Cause where
  | text (message : String)
  | json (error : ReadError)
  | file (error : FileError)
  deriving DecidableEq, Repr

/-- An account of why something failed, the outermost cause first. -/
abbrev Failure := List Cause

end LabExchange
