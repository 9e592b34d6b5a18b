import JobConsole.Execution.Launch

/-! # Running tasks

The tasks of a registry and the processes that they carry go on side by side. What a task can do by
itself it does at once, in the order of submission; then the next process makes its step. After the exit
of a process its output is read for one more second.
-/

namespace JobConsole

/-- A process that a task carries. -/
structure Carried where
  jobId : String
  number : Nat
  /-- When it exited. -/
  endTime : Option Nat
  deriving DecidableEq, Repr

/-- The registry, the world in which its jobs run, and their processes. -/
structure Execution where
  registry : Registry
  world : Host.World
  carried : List Carried

namespace Execution

open JobConsole.Host

/-- How long output is read after the exit, in microseconds. -/
def drainTime : Nat := 1000000

def start (r : Registry) (fs : FileSystem) : Execution := ⟨r, .empty fs, []⟩

/-- Takes a step of a task, if it can happen. -/
def take (x : Execution) (id : String) (now : Timestamp) (a : Action) : Execution :=
  { x with registry := (x.registry.step id a now).getD x.registry }

/-- Takes steps of a task, those that can happen. -/
def takeAll (x : Execution) (id : String) (now : Timestamp) (as : List Action) : Execution :=
  as.foldl (fun x a => x.take id now a) x

/-- Lets a pump take lines until it has none. -/
def pumpAll (id : String) (now : Timestamp) (s : Stream) : Nat → Registry → Registry
  | 0, r => r
  | n + 1, r =>
    match r.step id (.pump s) now with
    | some r' => pumpAll id now s n r'
    | none => r

/-- Takes a step of a task, and lets a pump take lines that have come. At most so many octets have. -/
def takeOutput (x : Execution) (id : String) (now : Timestamp) (s : Stream) (size : Nat)
    (a : Action) : Execution :=
  let x := x.take id now a
  { x with registry := pumpAll id now s (size + Pump.maxLineBytes + 2) x.registry }

/-! ## What tasks do at once -/

/-- Launches the process of a task. -/
def launchTask (x : Execution) (ambient : Ambient) (now : Timestamp) (id : String) : Execution :=
  match x.registry.launchSpec? id with
  | none => x.take id now (.launch (.error ""))
  | some spec =>
    match launch x.world ambient spec with
    | .error cause => x.take id now (.launch (.error cause))
    | .ok (number, w) =>
      let x := x.take id now (.launch (.ok number))
      { x with world := w, carried := x.carried ++ [⟨id, number, none⟩] }

/-- Whether both pumps of a task have stopped after the exit. -/
def isDrained : Stage → Bool
  | .running out err (some _) => out.state = .stopped && err.state = .stopped
  | _ => false

/-- Forgets the process of a task, whose output nobody reads any more. -/
def release (x : Execution) (id : String) : Execution :=
  let numbers := (x.carried.filter (·.jobId = id)).map (·.number)
  { x with
    carried := x.carried.filter (·.jobId ≠ id)
    world := numbers.foldl World.hangUp x.world }

/-- What a task can do by itself, if it can do anything. -/
def advance? (x : Execution) (ambient : Ambient) (now : Timestamp) (t : Task) : Option Execution :=
  let id := t.jobId
  match t.stage with
  | .waiting => (x.registry.step id .acquire now).map fun r => { x with registry := r }
  | .ready => some (x.launchTask ambient now id)
  | .reporting _ => some (x.take id now .report)
  | .failing _ => some (x.take id now .fail)
  | .running .. => if isDrained t.stage then some ((x.take id now .finish).release id) else none
  | .finished => some (x.take id now .leave)
  | .gone => none

/-! ## What processes bring about -/

/-- Tells the task of a process what has occurred. -/
def hear (now : Timestamp) (x : Execution) : Occurrence → Execution
  | .wrote n s os =>
    match x.carried.find? (·.number = n) with
    | some c => x.takeOutput c.jobId now s os.length (.read s os)
    | none => x
  | .closed n s =>
    match x.carried.find? (·.number = n) with
    | some c => x.takeOutput c.jobId now s 0 (.endOutput s)
    | none => x
  | .ended n e =>
    match x.carried.find? (·.number = n) with
    | some c =>
      let x := x.take c.jobId now (.exit e.exit)
      { x with carried := x.carried.map fun c' =>
          if c'.number = n then { c' with endTime := some x.world.clock } else c' }
    | none => x

/-- Tells all that has occurred. -/
def hearAll (now : Timestamp) (x : Execution) : Execution :=
  let news := x.world.news.reverse
  news.foldl (hear now) { x with world := { x.world with news := [] } }

/-- The process whose output is given up first, and when. -/
def deadline? (x : Execution) : Option (Nat × Carried) :=
  x.carried.foldl
    (fun best c =>
      match c.endTime, best with
      | none, b => b
      | some t, none => some (t + drainTime, c)
      | some t, some (u, d) => if t + drainTime < u then some (t + drainTime, c) else some (u, d))
    none

/-- Gives up the output of a process. -/
def giveUp (x : Execution) (now : Timestamp) (t : Nat) (c : Carried) : Execution :=
  let x := x.takeAll c.jobId now [.abort .stdout, .abort .stderr]
  { x with world := { x.world with clock := max x.world.clock t } }

/-- The next thing that happens, if anything does. -/
def next? (x : Execution) (ambient : Ambient) (now : Timestamp) : Option Execution :=
  if !x.world.news.isEmpty then some (hearAll now x)
  else
    match x.registry.tasks.findSome? fun t => x.advance? ambient now t with
    | some x' => some x'
    | none =>
      match x.world.next?, x.deadline? with
      | some (t, p), some (u, c) =>
        if u < t then some (x.giveUp now u c) else some { x with world := x.world.stepProc t p }
      | some (t, p), none => some { x with world := x.world.stepProc t p }
      | none, some (u, c) => some (x.giveUp now u c)
      | none, none => none

def isTerminal (r : Registry) (id : String) : Bool :=
  match r.get? id with
  | none => true
  | some j => j.status.isTerminal

/-- Lets tasks do what they can do by themselves. -/
def settle (ambient : Ambient) (now : Timestamp) : Nat → Execution → Execution
  | 0, x => x
  | n + 1, x =>
    match x.registry.tasks.findSome? fun t => x.advance? ambient now t with
    | some x' => settle ambient now n x'
    | none => x

def runFor (ambient : Ambient) (now : Timestamp) (id : String) : Nat → Execution → Execution
  | 0, x => x
  | n + 1, x =>
    if isTerminal x.registry id then settle ambient now Programs.endless x
    else
      match x.next? ambient now with
      | some x' => runFor ambient now id n x'
      | none => x

/-- Lets everything go on until a job is terminal. -/
def runUntil (ambient : Ambient) (now : Timestamp) (id : String) (x : Execution) : Execution :=
  runFor ambient now id Programs.endless x

end Execution

end JobConsole
