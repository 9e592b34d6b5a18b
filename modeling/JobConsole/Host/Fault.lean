import JobConsole.Files.Error

/-! # Faults

The causes for which the system refuses a call, in the words that programs report them in.
-/

namespace JobConsole.Host

inductive Fault where
  | file (e : FileError)
  | badDescriptor
  | brokenPipe
  | interrupted
  | noSuchNumber
  | notPermitted
  | invalid
  deriving DecidableEq, Repr

namespace Fault

def reason : Fault → String
  | file e => e.reason
  | badDescriptor => "Bad file descriptor"
  | brokenPipe => "Broken pipe"
  | interrupted => "Interrupted system call"
  | noSuchNumber => "No such process"
  | notPermitted => "Operation not permitted"
  | invalid => "Invalid argument"

/-- Whether a path leads nowhere. -/
def isAbsence : Fault → Bool
  | file .missing | file .notDirectory => true
  | _ => false

end Fault

end JobConsole.Host
