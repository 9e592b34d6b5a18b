import JobConsole.Shell.Goal

/-! # Jobs

What a shell starts is kept in mind by a number until it has ended and has been waited for. A shell that
is started by a shell has no jobs, and only ignored signals stay as they were.
-/

namespace JobConsole.Shell

open JobConsole.Host

namespace Batch

def isOver (b : Batch) : Bool := b.processes.all (·.2.isSome)

/-- The status that an ending comes to. -/
def statusOf : Ending → Nat
  | .code n => n
  | .signal n => 128 + n

/-- The status of the last process. -/
def status (b : Batch) : Nat :=
  match b.processes.getLast? with
  | some (_, some e) => statusOf e
  | _ => 0

def note (b : Batch) (number : Nat) (e : Ending) : Batch :=
  { b with processes := b.processes.map fun p => if p.1 = number then (number, some e) else p }

/-- Whether a process is one of those that may still be running. -/
def runs (b : Batch) (number : Nat) : Bool :=
  b.processes.any fun p => p.1 = number && p.2.isNone

end Batch

/-- The number of the next job: the least one that is free or done with. -/
def Machine.freeJob (m : Machine) : Nat :=
  let isFree (n : Nat) : Bool :=
    match m.jobs.lookup n with
    | none => true
    | some b => b.isOver && b.isWaited
  ((List.range' 1 (m.jobs.length + 1)).find? isFree).getD 1

def Machine.setJob (m : Machine) (n : Nat) (f : Batch → Batch) : Machine :=
  { m with jobs := m.jobs.map fun j => if j.1 = n then (n, f j.2) else j }

def Machine.dropJob (m : Machine) (n : Nat) : Machine :=
  { m with jobs := m.jobs.filter (·.1 ≠ n) }

/-- Starts a job without processes and gives its number. -/
def openJob : Sh Nat := do
  let m ← get
  let n := m.freeJob
  set { m.dropJob n with jobs := (n, ⟨[], false⟩) :: (m.dropJob n).jobs }
  return n

/-! ## Waiting -/

/-- Takes note of the end of a process. The end of a process of the job `n` by a signal is told, unless
it is an interrupt or a broken pipe. -/
def noteEnd (n : Option Nat) (number : Nat) (e : Ending) : Sh Unit := do
  let m ← get
  match m.jobs.find? fun j => j.2.runs number with
  | none => return ()
  | some (k, _) =>
    set (m.setJob k (·.note number e))
    match e with
    | .signal s =>
      if n = some k && s ≠ Signal.interrupt && s ≠ Signal.pipe then
        let _ ← Sh.write 2 (Signal.description s ++ "\n")
    | .code _ => return ()

/-- Waits until a job is over. -/
def awaitOver (n : Nat) : Nat → Sh Unit
  | 0 => return ()
  | fuel + 1 => do
    match (← get).jobs.lookup n with
    | none => return ()
    | some b =>
      if b.isOver then return ()
      else
        match ← Sh.call (.wait .endless) with
        | .ended number e =>
          noteEnd (some n) number e
          awaitOver n fuel
        | _ => return ()

/-- Waits for a job and forgets it. -/
def awaitJob (n : Nat) : Sh Nat := do
  awaitOver n Programs.endless
  let m ← get
  set (m.dropJob n)
  return ((m.jobs.lookup n).map (·.status)).getD 0

/-- Takes note of all ends that have come already. -/
def noteEnds : Nat → Sh Unit
  | 0 => return ()
  | fuel + 1 => do
    match ← Sh.call (.wait .none) with
    | .ended number e =>
      noteEnd none number e
      noteEnds fuel
    | _ => return ()

/-! ## Starting -/

/-- How a process is started. -/
inductive Start where
  | waited
  /-- Not waited for; with `isFirst` it has no input. -/
  | background (isFirst : Bool)

/-- Ignores a signal for good. -/
def ignore (s : Nat) : Sh Unit := do
  Sh.call (.dispose s .ignored)
  modify fun m => { m with deaf := s :: m.deaf }

/-- What a shell is when it has just been started by another one. -/
def becomeChild (s : Start) : Sh Unit := do
  let m ← get
  let (gone, traps) := m.traps.partition (·.2 ≠ "")
  set { m with
    traps, jobs := [], kept := [], skip := .nothing, loops := 0, pending := []
    status := m.savedStatus.getD m.status, savedStatus := none, printed := "" }
  for (n, _) in gone do
    if n ≠ 0 then Sh.call (.dispose n .standard)
  match s with
  | .waited => return ()
  | .background isFirst =>
    ignore Signal.interrupt
    ignore Signal.quit
    if isFirst then
      let _ ← Sh.call (.close 0)
      let _ ← Sh.call (.openFile "/dev/null" .input)

/-- Starts a process for a job. -/
def Runner.spawn (r : Runner) (job : Nat) (s : Start) (x : Sh Nat) : Sh Unit := do
  let m ← get
  let number ← Sh.fork (r.program (do
    becomeChild s
    x) m)
  modify fun m => m.setJob job fun b => { b with processes := b.processes ++ [(number, none)] }
  match s with
  | .waited => return ()
  | .background _ => modify fun m => { m with lastBackground := some number }

/-- Makes a descriptor stand for an end of a pipe. -/
def moveTo (source target : Nat) : Sh Unit := do
  if source ≠ target then
    let _ ← Sh.call (.copy source target)
    let _ ← Sh.call (.close source)

/-- What commands print. Their status is kept in mind. -/
def Runner.output (r : Runner) : Substitution
  | none => return ""
  | some c => do
    let job ← openJob
    let (reading, writing) ← Sh.call .pipe
    r.spawn job .waited do
      let _ ← Sh.call (.close reading)
      moveTo writing 1
      r.run (.command c ⟨true, false⟩)
    let _ ← Sh.call (.close writing)
    let octets ← Sh.lift (Programs.drain reading)
    let _ ← Sh.call (.close reading)
    let status ← awaitJob job
    modify fun m => { m with outputStatus := status }
    return Text.Octets.ofBytes (octets.toOption.getD [])

end JobConsole.Shell
