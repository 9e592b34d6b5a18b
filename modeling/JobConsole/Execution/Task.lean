import JobConsole.Job.Log
import JobConsole.Output.LineDecoder

/-! # Tasks

Every submitted job is carried by one task from its slot to the end of its process. While the
process runs, two pumps turn its output into log entries, one for each output stream. The task keeps
its slot until it is done, whatever way it takes.
-/

namespace JobConsole

/-- What a task has of the limited number of slots. -/
inductive Slot where
  /-- There is no limit. -/
  | unneeded
  | held
  | awaited
  | released
  deriving DecidableEq, Repr

/-- How a process ended. -/
structure Exit where
  code : Option Int
  signal : Option String
  deriving DecidableEq, Repr

/-- What waiting for a process comes to. -/
inductive WaitResult where
  | exited (e : Exit)
  | failed (cause : String)
  deriving DecidableEq, Repr

inductive PumpState where
  /-- Every line of the buffer has been taken; more output may come. -/
  | reading
  /-- The buffer may hold lines. -/
  | decoding
  /-- No more output comes, and the rest of the buffer is being taken. -/
  | ending
  | stopped
  deriving DecidableEq, Repr

structure Pump where
  stream : Stream
  decoder : Output.LineDecoder
  buffer : List UInt8
  state : PumpState
  deriving DecidableEq, Repr

namespace Pump

/-- Longest line of output that is kept whole, in octets. -/
def maxLineBytes : Nat := 16 * 1024

def new (stream : Stream) : Pump := ⟨stream, .new maxLineBytes, [], .reading⟩

/-- Takes in a chunk of output. -/
def receive (p : Pump) (chunk : List UInt8) : Pump :=
  { p with buffer := p.buffer ++ chunk, state := .decoding }

/-- Takes the next line of the buffer, if there is one. -/
def take (p : Pump) : Option String × Pump :=
  match p.state with
  | .reading | .stopped => (none, p)
  | .decoding =>
    match p.decoder.next p.buffer with
    | (some line, d, rest) => (some line, { p with decoder := d, buffer := rest })
    | (none, d, rest) => (none, { p with decoder := d, buffer := rest, state := .reading })
  | .ending =>
    match p.decoder.nextAtEnd p.buffer with
    | (some line, d, rest) => (some line, { p with decoder := d, buffer := rest })
    | (none, d, rest) => (none, { p with decoder := d, buffer := rest, state := .stopped })

end Pump

inductive Stage where
  /-- Waits for a slot. -/
  | waiting
  /-- About to launch the process. -/
  | ready
  /-- The process could not be launched or waited for, and the reason is still to be reported. -/
  | reporting (reason : String)
  /-- The reason is reported, and the job is still to be finished. -/
  | failing (reason : String)
  | running (stdout stderr : Pump) (exit : Option WaitResult)
  /-- The job is finished. -/
  | finished
  | gone
  deriving DecidableEq, Repr

structure Task where
  jobId : String
  slot : Slot
  stage : Stage
  deriving DecidableEq, Repr

namespace Task

def new (jobId : String) (slot : Slot) : Task :=
  ⟨jobId, slot, if slot = .awaited then .waiting else .ready⟩

def isGone (t : Task) : Bool := t.stage = .gone

end Task

end JobConsole
