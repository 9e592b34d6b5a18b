/-! # Job status

A job is queued, then running, then succeeded or failed. Status never moves in any other way.
-/

namespace JobConsole

inductive Status where
  | queued
  | running
  | succeeded
  | failed
  deriving DecidableEq, Repr, Inhabited

namespace Status

def all : List Status := [queued, running, succeeded, failed]

def name : Status → String
  | queued => "queued"
  | running => "running"
  | succeeded => "succeeded"
  | failed => "failed"

def ofName? (s : String) : Option Status :=
  all.find? (·.name = s)

def isTerminal : Status → Bool
  | succeeded | failed => true
  | queued | running => false

def canMoveTo : Status → Status → Bool
  | queued, running => true
  | running, succeeded => true
  | running, failed => true
  | _, _ => false

/-- Only the exit code zero is a success. -/
def ofExitCode (code : Option Int) : Status :=
  if code = some 0 then succeeded else failed

theorem ofName?_name (s : Status) : ofName? s.name = some s := by
  cases s <;> decide

end Status

end JobConsole
