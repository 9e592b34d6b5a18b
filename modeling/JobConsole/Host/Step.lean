import JobConsole.Host.World

/-! # Steps of a world

A step lets one process make its next call. A process is ready when its call can be answered: a read
waits for octets or for the end of its pipe, a write for room in it, a wait for the end of a child.
Of the processes that are ready the one whose time has come first makes its step, so what a process
learns is never later than its own time.
-/

namespace JobConsole.Host

/-- What calls cost, in microseconds. -/
structure Costs where
  call : Nat
  tick : Nat
  fork : Nat
  /-- From the start of a second program to its first call. -/
  birth : Nat
  replace : Nat

def costs : Costs := ⟨2, 8, 90, 160, 500⟩

namespace World

/-! ## Readiness -/

def children (w : World) (p : Proc) : List Proc := w.procs.filter (·.parent = p.number)

/-- Whether a read can be answered. -/
def canRead (w : World) (p : Proc) (d : Nat) : Bool :=
  match w.openFile? p d with
  | some (_, f) =>
    match f.target with
    | .reader x => !(w.pipeContent x).isEmpty || !w.leadsTo (.writer x)
    | _ => true
  | none => true

/-- How much of a write to a pipe has room now. -/
def room (w : World) (x count : Nat) : Nat :=
  let free := pipeCapacity - (w.pipeContent x).length
  if count ≤ pipeUnit then (if count ≤ free then count else 0) else min free count

def canWrite (w : World) (p : Proc) (d count : Nat) : Bool :=
  match w.openFile? p d with
  | some (_, f) =>
    match f.target with
    | .writer x => count = 0 || !w.leadsTo (.reader x) || 0 < w.room x count
    | _ => true
  | none => true

def canWait (w : World) (p : Proc) : Patience → Bool
  | .none => true
  | patience =>
    (w.children p).isEmpty || (w.children p).any (!·.isAlive) ||
      (patience = .interruptible && !p.pending.isEmpty)

/-- When a process can make its next step, as things are. -/
def readyTime? (w : World) (p : Proc) : Option Nat :=
  if !p.isAlive || p.stopped then none
  else
    match p.program with
    | .call (.sleepUntil t) _ => some (if p.pending.isEmpty then max p.time t else p.time)
    | .call (.read d _) _ =>
      if w.canRead p d || !p.pending.isEmpty then some p.time else none
    | .call (.write d os) _ => if w.canWrite p d os.length then some p.time else none
    | .call (.wait patience) _ => if w.canWait p patience then some p.time else none
    | _ => some p.time

/-- The process that goes on next, and when. -/
def next? (w : World) : Option (Nat × Proc) :=
  w.procs.foldl
    (fun best p =>
      match w.readyTime? p, best with
      | none, b => b
      | some t, none => some (t, p)
      | some t, some (u, q) => if t < u then some (t, p) else some (u, q))
    none

/-! ## Files -/

def openPath (w : World) (p : Proc) (path : String) (mode : OpenMode) :
    Except Fault (OpenFile × FileSystem) :=
  let fs := w.view p
  let put (l : Location) (fs : FileSystem) (reads empties : Bool) :
      OpenFile × FileSystem :=
    match fs.entry? l with
    | some (.device d) => (⟨.device d, reads, true, false, 0⟩, fs)
    | _ =>
      (⟨.file l, reads, true, mode = .append, 0⟩, if empties then fs.set l (.file []) else fs)
  match mode with
  | .input =>
    match fs.find path with
    | .error e => .error (.file e)
    | .ok l =>
      match fs.entry? l with
      | some .directory => .ok (⟨.directory l, true, false, false, 0⟩, fs)
      | some (.device d) => .ok (⟨.device d, true, false, false, 0⟩, fs)
      | _ => .ok (⟨.file l, true, false, false, 0⟩, fs)
  | .fresh =>
    match fs.place false path with
    | .ok (.taken _) => .error (.file .alreadyExists)
    | _ =>
      match fs.provide path with
      | .error e => .error (.file e)
      | .ok (l, fs') => .ok (put l fs' false false)
  | .existing =>
    match fs.find path with
    | .error e => .error (.file e)
    | .ok l =>
      if fs.entry? l = some .directory then .error (.file .isDirectory)
      else .ok (put l fs false false)
  | _ =>
    match fs.provide path with
    | .error e => .error (.file e)
    | .ok (l, fs') => .ok (put l fs' (mode = .update) (mode = .output))

def contentOf (w : World) (l : Location) : List UInt8 :=
  match w.files.entry? l with
  | some (.file os) => os
  | _ => []

/-- Octets put at a place of a file. What was there is replaced, and a gap in front is zeros. -/
def splice (content : List UInt8) (place : Nat) (os : List UInt8) : List UInt8 :=
  if place = content.length then content ++ os
  else
    content.take place ++ List.replicate (place - content.length) 0 ++ os ++
      content.drop (place + os.length)

/-! ## Calls -/

/-- The process goes on with an answer. -/
def answer {α : Type} (w : World) (p : Proc) (next : α → Program) (a : α) : World :=
  w.setProc { p with program := next a, time := p.time + costs.call }

def answerRead (w : World) (p : Proc) (next : Except Fault (List UInt8) → Program)
    (d count : Nat) : World :=
  match w.openFile? p d with
  | none => w.answer p next (.error .badDescriptor)
  | some (n, f) =>
    if !f.reads then w.answer p next (.error .badDescriptor)
    else
      match f.target with
      | .file l =>
        let os := ((w.contentOf l).drop f.place).take count
        (w.setOpenFile n { f with place := f.place + os.length }).answer p next (.ok os)
      | .directory _ => w.answer p next (.error (.file .isDirectory))
      | .device .sink => w.answer p next (.ok [])
      | .device .zeros => w.answer p next (.ok (List.replicate count 0))
      | .reader x =>
        let os := w.pipeContent x
        if os.isEmpty && w.leadsTo (.writer x) then w.answer p next (.error .interrupted)
        else
          (w.setPipe x (os.drop count)).answer p next (.ok (os.take count))
      | .writer _ | .output .. => w.answer p next (.error .badDescriptor)

/-- Tells a process that nobody reads what it writes, which ends it unless it has said otherwise. -/
def breakPipe (w : World) (p : Proc) (next : Except Fault Unit → Program) : World :=
  if p.disposition Signal.pipe = .standard then w.finish p (.signal Signal.pipe)
  else
    let w := w.answer p next (.error .brokenPipe)
    match w.proc? p.number with
    | some p' => w.signal p' Signal.pipe
    | none => w

def answerWrite (w : World) (p : Proc) (next : Except Fault Unit → Program) (d : Nat)
    (os : List UInt8) : World :=
  match w.openFile? p d with
  | none => w.answer p next (.error .badDescriptor)
  | some (n, f) =>
    if !f.writes then w.answer p next (.error .badDescriptor)
    else
      match f.target with
      | .file l =>
        let content := w.contentOf l
        let place := if f.appends then content.length else f.place
        let files := w.files.set l (.file (splice content place os))
        ({ w with files := files }.setOpenFile n { f with place := place + os.length }).answer p next
          (.ok ())
      | .output job stream =>
        if w.streams.contains (job, stream) then
          (w.report (.wrote job stream os)).answer p next (.ok ())
        else w.breakPipe p next
      | .writer x =>
        if !w.leadsTo (.reader x) then w.breakPipe p next
        else
          let k := w.room x os.length
          let w := w.setPipe x (w.pipeContent x ++ os.take k)
          if k < os.length then
            w.setProc { p with
              program := .call (.write d (os.drop k)) next, time := p.time + costs.call }
          else w.answer p next (.ok ())
      | _ => w.answer p next (.ok ())

def answerWait (w : World) (p : Proc) (next : Awaited → Program) (patience : Patience) : World :=
  match (w.children p).filter (!·.isAlive) with
  | q :: _ =>
    let ending := q.ended.getD (.code 0)
    { w with procs := w.procs.filter (·.number ≠ q.number) }.answer p next (.ended q.number ending)
  | [] =>
    if patience = .interruptible && !p.pending.isEmpty && !(w.children p).isEmpty then
      w.answer p next .interrupted
    else w.answer p next .nothing

def answerKill (w : World) (p : Proc) (next : Except Fault Unit → Program) (n s : Nat) : World :=
  match w.proc? n with
  | none => w.answer p next (.error .noSuchNumber)
  | some _ =>
    if Signal.last < s then w.answer p next (.error .invalid)
    else
      let w := w.answer p next (.ok ())
      if s = 0 then w
      else
        match w.proc? n with
        | some q => w.signal q s
        | none => w

/-- Answers the call of a process whose time has come. -/
def answerCall (w : World) (p : Proc) : (c : Call) → (c.Reply → Program) → World
  | .tick, next => w.setProc { p with program := next (), time := p.time + costs.tick }
  | .identity, next => w.answer p next (p.number, p.parent)
  | .openFile path mode, next =>
    match w.openPath p path mode with
    | .error e => w.answer p next (.error e)
    | .ok (f, fs) =>
      let d := p.freeFrom 0
      let (w, p) := { w with files := { fs with current := w.files.current } }.install p d f
      w.answer p next (.ok d)
  | .close d, next =>
    if (p.descriptors.lookup d).isNone then w.answer p next (.error .badDescriptor)
    else (w.answer (p.dropDescriptor d) next (.ok ())).sweep
  | .copy source target, next =>
    match p.descriptors.lookup source with
    | none => w.answer p next (.error .badDescriptor)
    | some x => (w.answer (p.setDescriptor target ⟨x.file, true⟩) next (.ok ())).sweep
  | .keep d least, next =>
    match p.descriptors.lookup d with
    | none => w.answer p next (.error .badDescriptor)
    | some x =>
      let d' := p.freeFrom least
      w.answer (p.setDescriptor d' ⟨x.file, false⟩) next (.ok d')
  | .pipe, next =>
    let x := w.next
    let w := { w with pipes := (x, []) :: w.pipes, next := x + 1 }
    let r := p.freeFrom 0
    let (w, p) := w.install p r ⟨.reader x, true, false, false, 0⟩
    let s := p.freeFrom 0
    let (w, p) := w.install p s ⟨.writer x, false, true, false, 0⟩
    w.answer p next (r, s)
  | .read d count, next => w.answerRead p next d count
  | .write d os, next => w.answerWrite p next d os
  | .wait patience, next => w.answerWait p next patience
  | .kill n s, next => w.answerKill p next n s
  | .dispose s d, next => w.answer (p.setDisposition s d) next ()
  | .disposition s, next => w.answer p next (p.disposition s)
  | .pending, next => w.answer { p with pending := [] } next p.pending
  | .locate d, next =>
    w.answer p next (match w.openFile? p d with
      | some (_, f) =>
        match f.target with
        | .file l => some (l, f.place, f.appends)
        | _ => none
      | none => none)
  | .rewind d count, next =>
    match w.openFile? p d with
    | some (n, f) =>
      match f.target with
      | .file _ => (w.setOpenFile n { f with place := f.place - count }).answer p next ()
      | _ => w.answer p next ()
    | none => w.answer p next ()
  | .sleep n, next => w.setProc { p with program := .call (.sleepUntil (p.time + n)) next }
  | .sleepUntil t, next => w.answer p next (decide (t ≤ p.time))
  | .files, next => w.answer p next (w.view p)
  | .enter path, next =>
    match (w.view p).find path with
    | .error e => w.answer p next (.error (.file e))
    | .ok l =>
      if w.files.entry? l = some .directory then w.answer { p with directory := l } next (.ok ())
      else w.answer p next (.error (.file .notDirectory))
  | .makeDirectory path, next =>
    match (w.view p).makeDirectory path with
    | .error e => w.answer p next (.error (.file e))
    | .ok fs => { w with files := { fs with current := w.files.current } }.answer p next (.ok ())
  | .replace, next =>
    let p := { p with
      descriptors := p.descriptors.filter (·.2.inherited)
      dispositions := p.dispositions.filter (·.2 = .ignored)
      pending := []
      time := p.time + costs.replace }
    (w.answer p next ()).sweep

/-- Lets a process make its next step at a time. -/
def stepProc (w : World) (time : Nat) (p : Proc) : World :=
  let w := { w with clock := max w.clock time }
  let p := { p with time := w.clock }
  match p.program with
  | .exit code => w.finish p (.code (code % 256))
  | .call c next => w.answerCall p c next
  | .fork child next =>
    let q := { p with
      number := w.next, parent := p.number, program := child, pending := []
      time := p.time + costs.birth }
    let w := w.setProc { p with program := next w.next, time := p.time + costs.fork }
    { w with procs := w.procs ++ [q], next := w.next + 1 }

/-- The world after its next step, if some process can go on. -/
def step? (w : World) : Option World :=
  match w.next? with
  | some (t, p) => some (w.stepProc t p)
  | none => none

/-! ## Starting -/

/-- Starts the first process of a job, whose output is reported and whose input is empty. -/
def launch (w : World) (directory : Location) (program : Program) : Nat × World :=
  let n := w.next
  let p : Proc :=
    { number := n, parent := 0, time := w.clock + costs.replace, program, descriptors := []
      directory, dispositions := [], pending := [], stopped := false, ended := none }
  let w := { w with next := n + 1, streams := w.streams ++ [(n, Stream.stdout), (n, Stream.stderr)] }
  let (w, p) := w.install p 0 ⟨.device .sink, true, false, false, 0⟩
  let (w, p) := w.install p 1 ⟨.output n .stdout, false, true, false, 0⟩
  let (w, p) := w.install p 2 ⟨.output n .stderr, false, true, false, 0⟩
  (n, { w with procs := w.procs ++ [p] })

end World

end JobConsole.Host
