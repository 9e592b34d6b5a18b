/-! # File system errors

The causes for which the system refuses a path. Each has a reason in words and, apart from a NUL
character, a number; reports give both.
-/

namespace JobConsole

inductive FileError where
  | missing
  | permission
  | alreadyExists
  | notDirectory
  | isDirectory
  | nameTooLong
  | tooManyLinks
  | nul
  deriving DecidableEq, Repr

namespace FileError

def reason : FileError → String
  | missing => "No such file or directory"
  | permission => "Permission denied"
  | alreadyExists => "File exists"
  | notDirectory => "Not a directory"
  | isDirectory => "Is a directory"
  | nameTooLong => "File name too long"
  | tooManyLinks => "Too many levels of symbolic links"
  | nul => "file name contained an unexpected NUL byte"

def number? : FileError → Option Nat
  | missing => some 2
  | permission => some 13
  | alreadyExists => some 17
  | notDirectory => some 20
  | isDirectory => some 21
  | nameTooLong => some 36
  | tooManyLinks => some 40
  | nul => none

def message (e : FileError) : String :=
  match e.number? with
  | some n => e.reason ++ " (os error " ++ toString n ++ ")"
  | none => e.reason

end FileError

end JobConsole
