import JobConsole.Bus.Basic
import JobConsole.Config.Basic
import JobConsole.Execution.Task

/-! # Job registry

The registry owns every job of a console, the bus that their events go to, and the tasks that carry
them. A change of a job and the event that announces it are one step, so an observer sees each
change either in the snapshot it starts from or as a later event. Jobs are kept in the order of
submission and never removed.
-/

namespace JobConsole

structure Registry where
  /-- In the order of submission. -/
  jobs : List Job
  bus : Bus
  /-- Absent when there is no limit. -/
  freeSlots : Option Nat
  tasks : List Task
  logCapacity : Nat
  workingDir : String

/-- How the task of a job changes the job. -/
inductive Change where
  | start (pid : Option Nat)
  | log (stream : Stream) (message : String)
  /-- The message enters the log, and is announced as an error. -/
  | report (message : String)
  | finish (exitCode : Option Int) (signal error : Option String)
  deriving DecidableEq, Repr

/-- The job after a change, and what announces the change. -/
def Change.on (c : Change) (j : Job) (now : Timestamp) : Except Error (Job × Payload) :=
  match c with
  | start pid =>
    match j.markRunning pid now with
    | .error e => .error e
    | .ok j' => .ok (j', .started pid)
  | log stream message =>
    let entry : LogEntry := ⟨stream, message, now⟩
    .ok (j.pushLog entry, .log entry)
  | report message => .ok (j.pushLog ⟨.error, message, now⟩, .error message)
  | finish exitCode signal error =>
    match j.markFinished exitCode signal error now with
    | .error e => .error e
    | .ok j' => .ok (j', (Event.finished j' now).payload)

/-- What a process is launched from. -/
structure LaunchSpec where
  command : List String
  cwd : String
  env : Dict String

namespace Registry

/-- More slots than this cannot be counted. -/
def maxSlots : Nat := Nat.pow 2 61 - 1

/-- An empty registry, unless more slots are asked for than can be counted. -/
def new (c : JobsConfig) : Option Registry :=
  if maxSlots < c.maxConcurrent then none
  else
    some
      { jobs := []
        bus := .new c.maxSubscribers
        freeSlots := if c.maxConcurrent = 0 then none else some c.maxConcurrent
        tasks := []
        logCapacity := c.logCapacity
        workingDir := c.workingDir }

def get? (r : Registry) (id : String) : Option Job := r.jobs.find? (·.id = id)

/-- Newest first; of two jobs created at one moment the one submitted later comes first. -/
def list (r : Registry) : List Job :=
  r.jobs.reverse.mergeSort fun a b => decide (b.createdAt.rank ≤ a.createdAt.rank)

def publish (r : Registry) (e : Event) : Registry := { r with bus := r.bus.publish e }

/-- Puts a version of a job in the place of the job. -/
def setJob (r : Registry) (j : Job) : Registry :=
  { r with jobs := r.jobs.map fun k => if k.id = j.id then j else k }

/-! ## Submitting -/

/-- The claim of a new task on a slot, and the slots that stay free. -/
def takeSlot (r : Registry) : Slot × Option Nat :=
  match r.freeSlots with
  | none => (.unneeded, none)
  | some 0 => (.awaited, some 0)
  | some (n + 1) => (.held, some n)

/-- The id a submission asks for, or the fresh one. -/
def chooseId (options : JobOptions) (fresh : String) : Except Error String :=
  match options.id with
  | none => .ok fresh
  | some id =>
    match checkId id with
    | .error e => .error e
    | .ok () => .ok id

/-- The directory a submission asks for, unless that is blank. -/
def chooseCwd (r : Registry) (options : JobOptions) : String :=
  (options.cwd.filter fun c => !Text.isAllBlank c).getD r.workingDir

/-- Enters a job, announces it and starts its task. -/
def enroll (r : Registry) (id : String) (command : List String) (options : JobOptions)
    (now : Timestamp) : Job × Registry :=
  let (slot, free) := r.takeSlot
  let j := { Job.new id command (r.chooseCwd options) options r.logCapacity now with
    awaitingSlot := decide (slot = .awaited) }
  (j,
    { r with
      jobs := r.jobs ++ [j]
      freeSlots := free
      bus := r.bus.publish (.queued j now)
      tasks := r.tasks ++ [.new id slot] })

def submit (r : Registry) (command : List String) (options : JobOptions) (fresh : String)
    (now : Timestamp) : Except Error (Job × Registry) :=
  match checkCommand command with
  | .error e => .error e
  | .ok () =>
    match chooseId options fresh with
    | .error e => .error e
    | .ok id =>
      if (r.get? id).isSome then .error (.duplicateJob id)
      else .ok (r.enroll id command options now)

/-! ## Observing -/

/-- The job as it is, and a subscription to its later events. -/
def watch (r : Registry) (id : String) : Except Error (Job × Nat × Registry) :=
  match r.get? id with
  | none => .error (.notFound .job id)
  | some j =>
    match r.bus.subscribe id with
    | .error e => .error e
    | .ok (s, b) => .ok (j, s, { r with bus := b })

/-- Subscribes to the events of a job, whether or not it exists yet. -/
def subscribe (r : Registry) (id : String) : Except Error (Nat × Registry) :=
  match r.bus.subscribe id with
  | .error e => .error e
  | .ok (s, b) => .ok (s, { r with bus := b })

def subscribeAll (r : Registry) : Nat × Registry :=
  let (s, b) := r.bus.subscribeAll
  (s, { r with bus := b })

/-! ## Metadata and side events -/

/-- Merges into the metadata of a job; publishes nothing. -/
def mergeMetadata (r : Registry) (id : String) (part : Metadata) :
    Except Error (Job × Registry) :=
  match r.get? id with
  | none => .error (.notFound .job id)
  | some j =>
    let j' := { j with metadata := j.metadata.merge part }
    .ok (j', r.setJob j')

/-- Publishes an event about an existing job. -/
def publishFor (r : Registry) (id : String) (p : Payload) (now : Timestamp) :
    Except Error Registry :=
  match r.get? id with
  | none => .error (.notFound .job id)
  | some _ => .ok (r.publish ⟨id, now, p⟩)

def publishStage (r : Registry) (id stage : String) (detail : Option Json) (now : Timestamp) :
    Except Error Registry :=
  r.publishFor id (.stage stage detail) now

def publishFileAccepted (r : Registry) (id fileName : String) (size : Nat)
    (path : Option String) (now : Timestamp) : Except Error Registry :=
  r.publishFor id (.fileAccepted fileName size path) now

/-! ## Changes by the task of a job -/

/-- Changes a job and publishes the event of the change. Nothing happens where the job is unknown
or refuses the change. -/
def change (r : Registry) (id : String) (c : Change) (now : Timestamp) : Registry :=
  match r.get? id with
  | none => r
  | some j =>
    match c.on j now with
    | .error _ => r
    | .ok (j', p) => (r.setJob j').publish ⟨id, now, p⟩

/-- Makes a change if there is one. -/
def changeIf (r : Registry) (id : String) (c : Option Change) (now : Timestamp) : Registry :=
  match c with
  | none => r
  | some c => r.change id c now

def markStarted (r : Registry) (id : String) (pid : Option Nat) (now : Timestamp) : Registry :=
  r.change id (.start pid) now

def appendLog (r : Registry) (id : String) (stream : Stream) (message : String)
    (now : Timestamp) : Registry :=
  r.change id (.log stream message) now

def reportError (r : Registry) (id message : String) (now : Timestamp) : Registry :=
  r.change id (.report message) now

def finish (r : Registry) (id : String) (exitCode : Option Int) (signal error : Option String)
    (now : Timestamp) : Registry :=
  r.change id (.finish exitCode signal error) now

def launchSpec? (r : Registry) (id : String) : Option LaunchSpec :=
  (r.get? id).map fun j => ⟨j.command, j.cwd, j.env⟩

end Registry

end JobConsole
