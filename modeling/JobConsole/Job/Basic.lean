import JobConsole.Job.Command
import JobConsole.Job.Log
import JobConsole.Job.Metadata

/-! # Jobs

A job is one tracked run of an external command. It is created queued, marked running when its
process starts, and marked finished once. Marking out of order is refused and leaves the job as it
was.
-/

namespace JobConsole

/-- What a submission may say beside its command. -/
structure JobOptions where
  cwd : Option String
  env : Dict String
  label : Option String
  id : Option String
  metadata : Metadata

namespace JobOptions

def none : JobOptions := ⟨.none, .empty, .none, .none, .empty⟩

instance : Inhabited JobOptions := ⟨none⟩

end JobOptions

structure Job where
  id : String
  label : String
  command : List String
  cwd : String
  env : Dict String
  status : Status
  /-- Whether the job waits for one of a limited number of slots. -/
  awaitingSlot : Bool
  createdAt : Timestamp
  startedAt : Option Timestamp
  completedAt : Option Timestamp
  exitCode : Option Int
  signal : Option String
  error : Option String
  pid : Option Nat
  log : Log
  metadata : Metadata

namespace Job

/-- A given label that is not blank, or the words of the command. -/
def chooseLabel (label : Option String) (command : List String) : String :=
  match label.filter (fun l => !Text.isAllBlank l) with
  | some l => l
  | none => String.intercalate " " command

def new (id : String) (command : List String) (cwd : String) (options : JobOptions)
    (logCapacity : Nat) (now : Timestamp) : Job where
  id := id
  label := chooseLabel options.label command
  command := command
  cwd := cwd
  env := options.env
  status := .queued
  awaitingSlot := false
  createdAt := now
  startedAt := none
  completedAt := none
  exitCode := none
  signal := none
  error := none
  pid := none
  log := .new logCapacity
  metadata := options.metadata

def moveTo (j : Job) (next : Status) : Except Error Job :=
  if j.status.canMoveTo next then .ok { j with status := next }
  else .error (.illegalMove j.id j.status next)

def markRunning (j : Job) (pid : Option Nat) (now : Timestamp) : Except Error Job :=
  match j.moveTo .running with
  | .error e => .error e
  | .ok j => .ok { j with awaitingSlot := false, pid := pid, startedAt := some now }

/-- Why a process failed that was not reported otherwise. -/
def exitMessage (exitCode : Option Int) (signal : Option String) : String :=
  match signal, exitCode with
  | some s, _ => "process terminated by signal " ++ s
  | none, some c => "process exited with code " ++ toString c
  | none, none => "process exited abnormally"

/-- The status that a finished process leads to. -/
def outcome (exitCode : Option Int) (error : Option String) : Status :=
  if error.isSome then .failed else .ofExitCode exitCode

def finishedError (j : Job) (exitCode : Option Int) (signal error : Option String) :
    Option String :=
  match error with
  | some e => some e
  | none =>
    if outcome exitCode none = .failed ∧ j.error = none then some (exitMessage exitCode signal)
    else j.error

def markFinished (j : Job) (exitCode : Option Int) (signal error : Option String)
    (now : Timestamp) : Except Error Job :=
  match j.moveTo (outcome exitCode error) with
  | .error e => .error e
  | .ok k =>
    .ok { k with
      exitCode := exitCode
      signal := signal
      error := j.finishedError exitCode signal error
      completedAt := some now }

def pushLog (j : Job) (e : LogEntry) : Job := { j with log := j.log.push e }

end Job

end JobConsole
