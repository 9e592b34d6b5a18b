import JobConsole.Files.Error
import JobConsole.Job.Status

/-! # Errors

The causes for which the console refuses a request, and the failures they are reported as. A failure
has a kind and a text; its display text names both.
-/

namespace JobConsole

inductive Entity where
  | job
  | artifact
  deriving DecidableEq, Repr

def Entity.name : Entity → String
  | job => "Job"
  | artifact => "Artifact"

/-- What makes a request invalid by itself. -/
inductive Invalid where
  | emptyCommand
  | blankExecutable
  | nulInCommand
  | idLength
  | reservedId (id : String)
  | idCharacters (id : String)
  | missingInput
  | emptyStage
  deriving DecidableEq, Repr

def maxIdBytes : Nat := 128

def Invalid.message : Invalid → String
  | emptyCommand => "command must contain at least the executable"
  | blankExecutable => "executable must not be blank"
  | nulInCommand => "command arguments must not contain NUL bytes"
  | idLength => "job id must be 1-" ++ toString maxIdBytes ++ " characters"
  | reservedId id => "invalid job id '" ++ id ++ "'"
  | idCharacters id =>
    "job id '" ++ id ++ "' may only contain letters, digits, '.', '_' and '-'"
  | missingInput => "inputPath is required"
  | emptyStage => "stage must not be empty"

inductive Error where
  | notFound (entity : Entity) (id : String)
  | invalid (reason : Invalid)
  | duplicateJob (id : String)
  | illegalMove (id : String) (current next : Status)
  | tooManySubscribers (id : String) (count : Nat)
  | noOutputDirectory (path : String) (cause : FileError)
  deriving DecidableEq, Repr

/-- An error as it is reported; the last two arise only where requests are answered. -/
inductive Failure where
  | notFound (entity : Entity) (id : String)
  | validation (text : String)
  | conflict (text : String)
  | capacity (text : String)
  | internal (text : String)
  | badRequest (text : String)
  | boundary (text : String)
  deriving DecidableEq, Repr

def Error.failure : Error → Failure
  | notFound e id => .notFound e id
  | invalid r => .validation r.message
  | duplicateJob id => .conflict ("job " ++ id ++ " already exists")
  | illegalMove id s t =>
    .conflict ("job " ++ id ++ " cannot move from " ++ s.name ++ " to " ++ t.name)
  | tooManySubscribers id n =>
    .capacity ("job " ++ id ++ " already has " ++ toString n ++ " subscribers")
  | noOutputDirectory path cause =>
    .internal ("failed to create output directory " ++ path ++ ": " ++ cause.message)

def Failure.display : Failure → String
  | notFound e id => "Entity not found: " ++ e.name ++ " with id " ++ id
  | validation m => "Validation failed: " ++ m
  | conflict m => "Conflict: " ++ m
  | capacity m => "Capacity exceeded: " ++ m
  | internal m => "Internal error: " ++ m
  | badRequest m => "Bad request: " ++ m
  | boundary m => "Internal error: " ++ m

end JobConsole
