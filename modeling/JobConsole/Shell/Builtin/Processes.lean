import JobConsole.Shell.Builtin.Basic

/-! # Processes

Jobs are waited for and listed, signals are sent, and it is said what is to be done on a signal.
-/

namespace JobConsole.Shell.Processes

open JobConsole.Host

/-! ## Waiting -/

/-- The job that a text names. -/
def findJob (text : String) : Sh Nat := do
  let m ← get
  let isNumber := text.toList.head? = some '%'
  let name := text.toList.drop 1
  match name with
  | [] | ['%'] | ['+'] =>
    match m.jobs with
    | (n, _) :: _ => return n
    | [] => Sh.fail "No current job"
  | ['-'] =>
    match m.jobs with
    | _ :: (n, _) :: _ => return n
    | _ => Sh.fail "No previous job"
  | _ =>
    let n := Text.Integer.valueOf 10 name
    if isNumber && name.all Char.isDigit && (m.jobs.lookup n).isSome then return n
    else Sh.fail ("No such job: " ++ text)

/-- Takes in the signals that were caught; the status that they make, if there are any. -/
def interruption : Sh (Option Nat) := do
  let caught : List Nat ← Sh.call .pending
  modify fun m => { m with pending := m.pending ++ caught }
  return caught.getLast?.map (128 + ·)

/-- Waits until `isDone` says so, or a signal is caught. -/
def waitUntil (job : Option Nat) (isDone : Machine → Bool) : Nat → Sh (Option Nat)
  | 0 => return none
  | n + 1 => do
    if isDone (← get) then return none
    else
      match ← Sh.call (.wait .interruptible) with
      | .ended number e =>
        noteEnd job number e
        waitUntil job isDone n
      | .nothing => return none
      | .interrupted =>
        match ← interruption with
        | some status => return some status
        | none => waitUntil job isDone n

/-- Waits for jobs one after the other. -/
def waitEach : List String → Nat → Sh Nat
  | [], status => return status
  | a :: rest, status => do
    let job ←
      if a.toList.head? = some '%' then do pure (some (← findJob a))
      else do
        let number ← Sh.number a
        let m ← get
        pure ((m.jobs.find? fun j => (j.2.processes.getLast?.map (·.1)) = some number).map (·.1))
    match job with
    | none => waitEach rest status
    | some n =>
      let isDone (m : Machine) : Bool := ((m.jobs.lookup n).map (·.isOver)).getD true
      match ← waitUntil (some n) isDone Programs.endless with
      | some status => return status
      | none =>
        modify fun m => m.setJob n fun b => { b with isWaited := true }
        let m ← get
        waitEach rest (((m.jobs.lookup n).map (·.status)).getD 0)

def wait : Builtin := fun _ u => do
  let args ← withoutOptions u.args
  if args.isEmpty then
    let isDone (m : Machine) : Bool := m.jobs.all (·.2.isOver)
    match ← waitUntil none isDone Programs.endless with
    | some status => return status
    | none =>
      modify fun m => { m with jobs := m.jobs.map fun j => (j.1, { j.2 with isWaited := true }) }
      return 0
  else waitEach args 127

/-! ## Listing -/

/-- What a job has come to. -/
def stateText (b : Batch) : String :=
  if !b.isOver then "Running"
  else
    match b.processes.getLast? with
    | some (_, some (.code 0)) => "Done"
    | some (_, some (.code n)) => "Done(" ++ toString n ++ ")"
    | some (_, some (.signal s)) => Signal.description s
    | _ => ""

def padded (s : String) (width : Nat) : String :=
  s ++ String.ofList (List.replicate (max 1 (width - s.length)) ' ')

/-- The lines about a job. -/
def jobText (isFirst isSecond withNumbers : Bool) (n : Nat) (b : Batch) : String :=
  let mark := if isFirst then "+ " else if isSecond then "- " else "  "
  let front := "[" ++ toString n ++ "] " ++ mark
  let numbers := b.processes.map fun p => toString p.1
  if withNumbers then
    let first := padded (front ++ numbers.headD "" ++ " " ++ stateText b) 33
    let blanks := String.ofList (List.replicate front.length ' ')
    first ++ String.join ((numbers.drop 1).map fun p =>
      padded ("\n" ++ blanks ++ p) 33) ++ "\n"
  else
    padded (front ++ stateText b) 33 ++ String.join ((numbers.drop 1).map fun _ => " | ") ++ "\n"

def jobs : Builtin := fun _ u => do
  let (options, args) ← takeOptions [('l', false), ('p', false)] u.args
  noteEnds Programs.endless
  let m ← get
  let shown ← if args.isEmpty then pure (m.jobs.map (·.1)) else args.mapM findJob
  for n in shown do
    match m.jobs.lookup n with
    | none => pure ()
    | some b =>
      if options.any (·.1 = 'p') then
        Sh.print (((b.processes.head?.map fun p => toString p.1).getD "") ++ "\n")
      else
        let isFirst := m.jobs.head?.any (·.1 = n)
        let isSecond := (m.jobs.drop 1).head?.any (·.1 = n)
        Sh.print (jobText isFirst isSecond (options.any (·.1 = 'l')) n b)
        if b.isOver then modify fun m => m.dropJob n
  return 0

/-- Jobs cannot be moved where there is no job control. -/
def move : Builtin := fun _ u => do
  let args ← withoutOptions u.args
  let _ ← findJob (args.headD "%")
  Sh.fail ("job " ++ (args.headD "(null)") ++ " not created under job control")

/-! ## Signals -/

def killUsage : String :=
  "Usage: kill [-s sigspec | -signum | -sigspec] [pid | job]... or\nkill -l [exitstatus]"

/-- Sends a signal to each process or job. -/
def sendAll (s : Nat) : List String → Nat → Sh Nat
  | [], status => return status
  | a :: rest, status => do
    let numbers ←
      match a.toList with
      | '%' :: _ => do
        let n ← findJob a
        let m ← get
        pure ((((m.jobs.lookup n).map (·.processes)).getD []).map (·.1))
      | '-' :: cs => do pure [← Sh.number (String.ofList cs)]
      | _ => do pure [← Sh.number a]
    let replies ← numbers.mapM fun n => Sh.call (.kill n s)
    match replies.findSome? fun r => match r with
        | .error e => some e
        | .ok _ => none with
    | some e =>
      Sh.warn (e.reason ++ "\n")
      sendAll s rest 1
    | none => sendAll s rest status

/-- The name of a signal, or of the one that made a status. -/
def describe (text : String) : Sh Nat := do
  let n ← Sh.number text
  let s := if 128 < n then n - 128 else n
  if 0 < s && s ≤ Signal.last then
    Sh.print (signalName s ++ "\n")
    return 0
  else Sh.fail ("invalid signal number or exit status: " ++ text)

def kill : Builtin := fun _ u => do
  let named := match (u.args.headD "").toList with
    | '-' :: cs => signal? 1 (String.ofList cs)
    | _ => none
  match named with
  | some s =>
    let rest := u.args.drop 1
    if rest.isEmpty then Sh.fail killUsage else sendAll s rest 0
  | none =>
    let (options, rest) ← takeOptions [('l', false), ('s', true)] u.args
    let lists := options.any (·.1 = 'l')
    let given ← (options.filter (·.1 = 's')).mapM fun (_, text) => do
      match signal? 1 text with
      | some s => return s
      | none => Sh.fail ("invalid signal number or name: " ++ text)
    if lists then
      match given, rest with
      | [], [] =>
        Sh.print ("0\n" ++ String.join (Signal.all.map fun s => signalName s ++ "\n"))
        return 0
      | [], a :: _ => describe a
      | _, _ => Sh.fail killUsage
    else if rest.isEmpty then Sh.fail killUsage
    else sendAll (given.getLast?.getD Signal.terminate) rest 0

/-! ## Traps -/

/-- Makes the system treat a signal as its trap asks. -/
def settle (s : Nat) : Sh Unit := do
  let m ← get
  if s = 0 || m.deaf.contains s then return ()
  else
    let inherited : Disposition ← if m.settled.contains s then pure .standard else Sh.call (.disposition s)
    if inherited = .ignored then modify fun m => { m with deaf := s :: m.deaf }
    else
      modify fun m => { m with settled := s :: m.settled.filter (· ≠ s) }
      Sh.call (.dispose s (match m.findTrap s with
        | none => .standard
        | some "" => .ignored
        | some _ => .caught))

/-- Sets a trap for each signal. -/
def setTraps (action : Option String) : List String → Sh Nat
  | [] => return 0
  | a :: rest => do
    match signal? 0 a with
    | none =>
      let _ ← Sh.write 2 ("trap: " ++ a ++ ": bad trap\n")
      return 1
    | some s =>
      modify fun m =>
        let others := m.traps.filter (·.1 ≠ s)
        { m with traps := match action with
          | some t => (s, t) :: others
          | none => others }
      settle s
      setTraps action rest

def trapName (s : Nat) : String := if s = 0 then "EXIT" else signalName s

def trap : Builtin := fun _ u => do
  let args ← withoutOptions u.args
  match args with
  | [] =>
    let m ← get
    Sh.print (String.join ((0 :: Signal.all).filterMap fun s =>
      (m.findTrap s).map fun t => "trap -- " ++ quoteText t ++ " " ++ trapName s ++ "\n"))
    return 0
  | first :: rest =>
    if rest.isEmpty || (first ≠ "" && first.all Char.isDigit && (signal? 0 first).isSome) then
      setTraps none args
    else setTraps (if first = "-" then none else some first) rest

end JobConsole.Shell.Processes
