import JobConsole.Job.Log
import JobConsole.Host.Program
import JobConsole.Host.Signal

/-! # Worlds

A world is a file system and the processes that run on it. A descriptor of a process stands for an open
file, which other descriptors may stand for too; so copies share their place in a file. A pipe ends for
its reader when no descriptor writes to it any more, and fails for its writer when none reads from it.
The output of a job is a stream that the world reports on: what is written, and when the last
descriptor for it is gone.
-/

namespace JobConsole.Host

/-- What an open file leads to. -/
inductive Target where
  | file (l : Location)
  | directory (l : Location)
  | device (d : Device)
  | reader (pipe : Nat)
  | writer (pipe : Nat)
  /-- The output of the job whose first process has a number. -/
  | output (job : Nat) (stream : Stream)
  deriving DecidableEq, Repr

structure OpenFile where
  target : Target
  reads : Bool
  writes : Bool
  /-- Whether each write goes to the end. -/
  appends : Bool
  place : Nat
  deriving DecidableEq, Repr

structure Descriptor where
  /-- The number of the open file. -/
  file : Nat
  /-- Whether a replacing program sees it. -/
  inherited : Bool
  deriving DecidableEq, Repr

structure Proc where
  number : Nat
  parent : Nat
  /-- When it can go on, in microseconds. -/
  time : Nat
  program : Program
  descriptors : List (Nat × Descriptor)
  directory : Location
  /-- The dispositions that are not standard. -/
  dispositions : List (Nat × Disposition)
  pending : List Nat
  stopped : Bool
  ended : Option Ending

inductive Occurrence where
  | wrote (job : Nat) (stream : Stream) (octets : List UInt8)
  | closed (job : Nat) (stream : Stream)
  | ended (number : Nat) (ending : Ending)
  deriving DecidableEq, Repr

structure World where
  clock : Nat
  files : FileSystem
  /-- In the order in which they were started. -/
  procs : List Proc
  opened : List (Nat × OpenFile)
  pipes : List (Nat × List UInt8)
  /-- A number that no process, open file or pipe has had. -/
  next : Nat
  /-- The outputs of jobs that some descriptor stands for. -/
  streams : List (Nat × Stream)
  /-- What has occurred since it was last asked for, the newest first. -/
  news : List Occurrence

namespace Proc

def isAlive (p : Proc) : Bool := p.ended.isNone

def disposition (p : Proc) (s : Nat) : Disposition := (p.dispositions.lookup s).getD .standard

def setDisposition (p : Proc) (s : Nat) (d : Disposition) : Proc :=
  let others := p.dispositions.filter (·.1 ≠ s)
  { p with dispositions := if d = .standard then others else (s, d) :: others }

/-- The least free descriptor from `n` on, among the first so many. -/
def freeFrom (p : Proc) (n : Nat) : Nat :=
  ((List.range' n (p.descriptors.length + 1)).find? fun d => (p.descriptors.lookup d).isNone).getD n

def setDescriptor (p : Proc) (d : Nat) (x : Descriptor) : Proc :=
  { p with descriptors := (d, x) :: p.descriptors.filter (·.1 ≠ d) }

def dropDescriptor (p : Proc) (d : Nat) : Proc :=
  { p with descriptors := p.descriptors.filter (·.1 ≠ d) }

end Proc

namespace World

/-- The number of the first process. -/
def firstNumber : Nat := 4000

def empty (fs : FileSystem) : World := ⟨0, fs, [], [], [], firstNumber, [], []⟩

/-- How many octets a pipe holds. -/
def pipeCapacity : Nat := 65536

/-- Octets that are written to a pipe all at once or not yet. -/
def pipeUnit : Nat := 4096

def proc? (w : World) (n : Nat) : Option Proc := w.procs.find? (·.number = n)

def setProc (w : World) (p : Proc) : World :=
  { w with procs := w.procs.map fun q => if q.number = p.number then p else q }

def report (w : World) (o : Occurrence) : World := { w with news := o :: w.news }

/-- The file system as a process sees it. -/
def view (w : World) (p : Proc) : FileSystem := { w.files with current := p.directory }

def openFile? (w : World) (p : Proc) (d : Nat) : Option (Nat × OpenFile) :=
  match p.descriptors.lookup d with
  | none => none
  | some x => (w.opened.lookup x.file).map (x.file, ·)

def setOpenFile (w : World) (n : Nat) (f : OpenFile) : World :=
  { w with opened := (n, f) :: w.opened.filter (·.1 ≠ n) }

def pipeContent (w : World) (x : Nat) : List UInt8 := (w.pipes.lookup x).getD []

def setPipe (w : World) (x : Nat) (os : List UInt8) : World :=
  { w with pipes := (x, os) :: w.pipes.filter (·.1 ≠ x) }

/-- Opens a target under a descriptor. -/
def install (w : World) (p : Proc) (d : Nat) (f : OpenFile) : World × Proc :=
  ({ w with opened := (w.next, f) :: w.opened, next := w.next + 1 },
    p.setDescriptor d ⟨w.next, true⟩)

/-- Whether some descriptor stands for an open file. -/
def isHeld (w : World) (n : Nat) : Bool :=
  w.procs.any fun p => p.descriptors.any fun d => d.2.file = n

def leadsTo (w : World) (t : Target) : Bool := w.opened.any fun f => f.2.target = t

/-- Forgets what no descriptor stands for, and reports the outputs that have come to their end. -/
def sweep (w : World) : World :=
  let w := { w with opened := w.opened.filter fun f => w.isHeld f.1 }
  let gone := w.streams.filter fun s => !w.leadsTo (.output s.1 s.2)
  let w := { w with
    pipes := w.pipes.filter fun x => w.leadsTo (.reader x.1) || w.leadsTo (.writer x.1)
    streams := w.streams.filter fun s => w.leadsTo (.output s.1 s.2) }
  gone.foldl (fun w s => w.report (.closed s.1 s.2)) w

/-- Stops reporting on the outputs of a job, to which nothing can be written any more. -/
def hangUp (w : World) (job : Nat) : World :=
  { w with streams := w.streams.filter (·.1 ≠ job) }

def hasParent (w : World) (p : Proc) : Bool :=
  w.procs.any fun q => q.number = p.parent && q.isAlive

/-- Ends a process. It is remembered until its parent has waited for it. -/
def finish (w : World) (p : Proc) (e : Ending) : World :=
  let ended := { p with ended := some e, descriptors := [], pending := [] }
  let orphaned := w.procs.filterMap fun q =>
    if q.number = p.number then if w.hasParent p then some ended else none
    else if q.parent = p.number then if q.isAlive then some { q with parent := 1 } else none
    else some q
  ({ w with procs := orphaned }.report (.ended p.number e)).sweep

/-- What a signal does to a process. -/
def signal (w : World) (p : Proc) (s : Nat) : World :=
  if !p.isAlive then w
  else
    match p.disposition s with
    | .ignored => w
    | .caught => if p.pending.contains s then w else w.setProc { p with pending := p.pending ++ [s] }
    | .standard =>
      match Signal.effect s with
      | .nothing => w
      | .stops => w.setProc { p with stopped := true }
      | .resumes => w.setProc { p with stopped := false }
      | .ends => w.finish p (.signal s)

end World

end JobConsole.Host
