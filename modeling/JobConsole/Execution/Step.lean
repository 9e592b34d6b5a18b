import JobConsole.Registry.Basic

/-! # Steps of a task

What can happen to a task, one step at a time. A step moves the task to another stage, changes the job
of the task at most once, and publishes the event of that change. Steps of different tasks, and of the
two pumps of one task, may follow one another in any order that lets each of them happen.
-/

namespace JobConsole

inductive Action where
  /-- A free slot is taken. -/
  | acquire
  /-- The process is launched, with its number, or cannot be, for a cause. -/
  | launch (outcome : Except String Nat)
  | report
  | fail
  /-- Output arrives. -/
  | read (stream : Stream) (chunk : List UInt8)
  | endOutput (stream : Stream)
  /-- Reading the output fails, for a cause. -/
  | failRead (stream : Stream) (cause : String)
  /-- A pump takes the next line, or finds that there is none. -/
  | pump (stream : Stream)
  | exit (e : Exit)
  /-- Waiting for the process fails, for a cause. -/
  | failWait (cause : String)
  /-- A pump is stopped because its output stays open too long after the exit. -/
  | abort (stream : Stream)
  | finish
  /-- The task ends and gives its slot back. -/
  | leave

namespace Pump

/-- A line goes to the log. -/
def change (p : Pump) (line : Option String) : Option Change := line.map (.log p.stream)

/-- The pump after output has arrived, ended, failed, been worked off or been cut off, and how that
changes the job. A pump reads once it has taken all lines that it has; a failure drops the rest. -/
def react (p : Pump) (exited : Bool) (a : Action) : Option (Option Change × Pump) :=
  match a, p.state with
  | .read _ chunk, .reading => some (none, p.receive chunk)
  | .endOutput _, .reading => some (none, { p with state := .ending })
  | .failRead _ cause, .reading =>
    some (some (.report ("failed reading " ++ p.stream.name ++ ": " ++ cause)),
      { p with state := .stopped })
  | .pump _, .decoding => some (p.change p.take.1, p.take.2)
  | .pump _, .ending => some (p.change p.take.1, p.take.2)
  | .abort _, _ => if exited then some (none, { p with state := .stopped }) else none
  | _, _ => none

end Pump

namespace Stage

/-- The stage after an attempt to launch. -/
def launch (spec : Option LaunchSpec) (outcome : Except String Nat) : Stage × Option Change :=
  match spec with
  | none => (.finished, none)
  | some spec =>
    match spec.command, outcome with
    | [], _ => (.reporting "command is empty", some (.start none))
    | program :: _, .error cause =>
      (.reporting ("failed to spawn '" ++ program ++ "': " ++ cause), some (.start none))
    | _ :: _, .ok pid => (.running (.new .stdout) (.new .stderr) none, some (.start (some pid)))

/-- The stage after the output has been drained. -/
def conclude : WaitResult → Stage × Option Change
  | .exited e => (.finished, some (.finish e.code e.signal none))
  | .failed cause => (.reporting ("failed to wait for process: " ++ cause), none)

/-- One step of a running process or of its pumps. -/
def reactRunning (out err : Pump) (exit : Option WaitResult) (a : Action) :
    Option (Stage × Option Change) :=
  let onPump (s : Stream) : Option (Stage × Option Change) :=
    match s with
    | .stdout => (out.react exit.isSome a).map fun (c, p) => (.running p err exit, c)
    | .stderr => (err.react exit.isSome a).map fun (c, p) => (.running out p exit, c)
    | .error => none
  match a with
  | .read s _ | .endOutput s | .failRead s _ | .pump s => onPump s
  | .abort s => if s = .stderr ∧ out.state ≠ .stopped then none else onPump s
  | .exit e => if exit.isNone then some (.running out err (some (.exited e)), none) else none
  | .failWait cause =>
    if exit.isNone then some (.running out err (some (.failed cause)), none) else none
  | .finish =>
    match exit with
    | none => none
    | some w => if out.state = .stopped ∧ err.state = .stopped then some (conclude w) else none
  | _ => none

/-- The stage after a step that needs no slot, and how the step changes the job. -/
def react (spec : Option LaunchSpec) (stage : Stage) (a : Action) :
    Option (Stage × Option Change) :=
  match stage, a with
  | .ready, .launch outcome => some (launch spec outcome)
  | .reporting m, .report => some (.failing m, some (.report m))
  | .failing m, .fail => some (.finished, some (.finish none none (some m)))
  | .running out err exit, a => reactRunning out err exit a
  | _, _ => none

end Stage

namespace Registry

def task? (r : Registry) (id : String) : Option Task := r.tasks.find? (·.jobId = id)

/-- Puts a version of a task in the place of the task. -/
def setTask (r : Registry) (t : Task) : Registry :=
  { r with tasks := r.tasks.map fun u => if u.jobId = t.jobId then t else u }

def setStage (r : Registry) (t : Task) (s : Stage) : Registry := r.setTask { t with stage := s }

/-- Gives the slot of a task back. -/
def release (r : Registry) (t : Task) : Registry :=
  match t.slot with
  | .held =>
    { r with freeSlots := r.freeSlots.map (· + 1) }.setTask ⟨t.jobId, .released, .gone⟩
  | _ => r.setStage t .gone

/-- The registry after a step of a task, if the step can happen. -/
def stepTask (r : Registry) (t : Task) (a : Action) (now : Timestamp) : Option Registry :=
  match t.stage, a with
  | .waiting, .acquire =>
    match r.freeSlots with
    | some (n + 1) => some ({ r with freeSlots := some n }.setTask ⟨t.jobId, .held, .ready⟩)
    | _ => none
  | .finished, .leave => some (r.release t)
  | stage, a =>
    match stage.react (r.launchSpec? t.jobId) a with
    | some (stage', c) => some ((r.changeIf t.jobId c now).setStage t stage')
    | none => none

/-- A step of the task of a job. -/
def step (r : Registry) (id : String) (a : Action) (now : Timestamp) : Option Registry :=
  match r.task? id with
  | none => none
  | some t => r.stepTask t a now

/-- Takes each step in turn; a step that cannot happen is left out. -/
def run (r : Registry) (now : Timestamp) (steps : List (String × Action)) : Registry :=
  steps.foldl (fun r s => (r.step s.1 s.2 now).getD r) r

end Registry

end JobConsole
