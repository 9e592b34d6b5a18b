import JobConsole.Shell.Simple

/-! # Running commands

Each goal is brought to the goals inside it, which a runner takes over. A failed command ends the shell
if it is told to, unless the failure is an answer.
-/

namespace JobConsole.Shell

open JobConsole.Host

/-! ## Loops -/

/-- How a loop goes on after a round. -/
inductive Turn where
  | further
  /-- The next round comes. -/
  | again
  /-- The loop is left. -/
  | out
  /-- The loop and what is around it is left. -/
  | away
  deriving DecidableEq, Repr

/-- Takes a loop out of what is being left. -/
def takeTurn : Sh Turn := do
  let m ← get
  match m.skip with
  | .nothing => return .further
  | .function _ => return .away
  | .break n =>
    set { m with skip := if n ≤ 1 then .nothing else .break (n - 1) }
    return .out
  | .continue n =>
    set { m with skip := if n ≤ 1 then .nothing else .continue (n - 1) }
    return if n ≤ 1 then .again else .out

/-- One round of a loop, and the rounds after it. -/
def runLoop (r : Runner) (whileFails : Bool) (test body : Command) (f : Flags) (status : Nat) :
    Sh Nat := do
  let tested ← r.run (.command test .tested)
  match ← takeTurn with
  | .away => return tested
  | .out => return status
  | .again => r.run (.loop whileFails test body f status)
  | .further =>
    if decide (tested = 0) = whileFails then return status
    else
      let status ← r.run (.command body f)
      match ← takeTurn with
      | .further | .again => r.run (.loop whileFails test body f status)
      | _ => return status

/-- Runs something inside one loop more. -/
def inLoop (x : Sh Nat) : Sh Nat := do
  modify fun m => { m with loops := m.loops + 1 }
  let status ← x
  modify fun m => { m with loops := m.loops - 1 }
  return status

/-- A round for each text. -/
def runEach (r : Runner) (name : String) (body : Command) (f : Flags) :
    List String → Nat → Sh Nat
  | [], status => return status
  | t :: rest, _ => do
    Sh.setVariable name t false
    let status ← r.run (.command body f)
    match ← takeTurn with
    | .further | .again => runEach r name body f rest status
    | _ => return status

/-! ## Choices -/

/-- Whether a text matches one of the patterns. -/
def matchesAny (r : Runner) (subject : String) : List Word → Sh Bool
  | [] => return false
  | w :: ws => do
    let pattern ← expandPattern r.output w
    if Pattern.matchesText pattern subject then return true else matchesAny r subject ws

def runChoice (r : Runner) (subject : String) (f : Flags) :
    List (List Word × Option Command) → Sh Nat
  | [] => return 0
  | (patterns, body) :: rest => do
    if (← get).skip ≠ .nothing then return 0
    else if ← matchesAny r subject patterns then
      match body with
      | none => return 0
      | some c => if (← get).skip = .nothing then r.run (.command c f) else return 0
    else runChoice r subject f rest

/-! ## Processes -/

/-- Runs commands in a process of their own, unless the shell ends with them anyway. -/
def runApart (r : Runner) (line : Nat) (body : Command)
    (redirections : List (Redirection (Option Command))) (isBackground : Bool) (f : Flags) :
    Sh Nat := do
  modify fun m => { m with line }
  let targets ← redirections.mapM (Redirection.prepare r.output)
  let inside (f : Flags) : Sh Nat := do
    let (_, isMade) ← redirectAll r.output false [] targets
    if isMade then r.run (.command body { f with isLast := true })
    else
      modify fun m => { m with status := 2 }
      throw .error
  if !isBackground && f.isLast && !(← get).hasTraps then inside f
  else
    let job ← openJob
    if isBackground then
      r.spawn job (.background true) (inside { f with isTested := false })
      return 0
    else
      r.spawn job .waited (inside f)
      awaitJob job

/-- Starts the commands of a pipeline, of which the first reads what `reading` says. -/
def startPipeline (r : Runner) (job : Nat) (isBackground : Bool) (f : Flags) :
    Option Nat → List Command → Sh Unit
  | _, [] => return ()
  | reading, c :: rest => do
    let ends ← if rest.isEmpty then pure none else do pure (some (← Sh.call .pipe))
    let start := if isBackground then Start.background reading.isNone else .waited
    r.spawn job start do
      match ends with
      | some (next, _) =>
        let _ ← Sh.call (.close next)
      | none => pure ()
      match reading with
      | some d => moveTo d 0
      | none => pure ()
      match ends with
      | some (_, writing) => moveTo writing 1
      | none => pure ()
      r.run (.command c { f with isLast := true })
    match reading with
    | some d =>
      let _ ← Sh.call (.close d)
    | none => pure ()
    match ends with
    | some (next, writing) =>
      let _ ← Sh.call (.close writing)
      startPipeline r job isBackground f (some next) rest
    | none => return ()

def runPipeline (r : Runner) (commands : List Command) (isBackground : Bool) (f : Flags) :
    Sh Nat := do
  let job ← openJob
  startPipeline r job isBackground f none commands
  if isBackground then return 0 else awaitJob job

/-- Runs a command with redirections. -/
def runRedirected (r : Runner) (line : Nat) (body : Command)
    (redirections : List (Redirection (Option Command))) (f : Flags) : Sh Nat := do
  modify fun m => { m with line }
  let targets ← redirections.mapM (Redirection.prepare r.output)
  let depth := (← get).kept.length
  let (kept, isMade) ← redirectAll r.output true [] targets
  modify fun m => { m with kept := kept :: m.kept }
  let status ← if isMade then r.run (.command body f.inner) else pure 2
  unwindKept depth
  return status

/-! ## Commands -/

/-- What a command comes to. -/
structure Result where
  /-- Its status; nothing if it is the one that is known already. -/
  status : Option Nat
  /-- Whether its failure may end the shell. -/
  counts : Bool

def Result.of (status : Nat) : Result := ⟨some status, false⟩

/-- Runs a second command after a first one, unless something is being left. -/
def runSecond (r : Runner) (second : Command) (f : Flags) (isWanted : Bool) : Sh Result := do
  if !isWanted || (← get).skip ≠ .nothing then return ⟨none, false⟩
  else return .of (← r.run (.command second f))

def runCommand (r : Runner) (c : Command) (f : Flags) : Sh Result := do
  match c with
  | .simple line assignments words rs =>
    return ⟨some (← runSimple r line assignments words rs f), true⟩
  | .pipeline commands isBackground =>
    return ⟨some (← runPipeline r commands isBackground f), true⟩
  | .subshell line body rs => return ⟨some (← runApart r line body rs false f), true⟩
  | .background line body rs => return ⟨some (← runApart r line body rs true f), true⟩
  | .redirected line body rs => return .of (← runRedirected r line body rs f)
  | .negated body =>
    let status ← r.run (.command body .tested)
    return .of (if status = 0 then 1 else 0)
  | .both first second =>
    let status ← r.run (.command first .tested)
    runSecond r second f (status = 0)
  | .either first second =>
    let status ← r.run (.command first .tested)
    runSecond r second f (status ≠ 0)
  | .sequence first second =>
    let _ ← r.run (.command first f.inner)
    runSecond r second f true
  | .branch test body otherwise =>
    let status ← r.run (.command test .tested)
    if (← get).skip ≠ .nothing then return ⟨none, false⟩
    else if status = 0 then return .of (← r.run (.command body f))
    else
      match otherwise with
      | some c => return .of (← r.run (.command c f))
      | none => return .of 0
  | .loop whileFails test body =>
    return .of (← inLoop (r.run (.loop whileFails test body f.inner 0)))
  | .each line name words body =>
    modify fun m => { m with line }
    let texts ← words.mapM (expandFields r.output)
    return .of (← inLoop (runEach r name body f.inner texts.flatten 0))
  | .choice line subject clauses =>
    modify fun m => { m with line }
    let text ← expandText r.output subject
    return .of (← runChoice r text f clauses)
  | .define line name body =>
    modify fun m =>
      { m with functions := (name, ⟨line, body⟩) :: m.functions.filter (·.1 ≠ name) }
    return .of 0

/-- Runs a command and does what its status and the flags ask for. -/
def runGoal (r : Runner) (c : Command) (f : Flags) : Sh Nat := do
  Sh.rest
  let result ←
    if (← get).has 'n' then pure ⟨none, false⟩
    else do
      runTraps r
      runCommand r c f
  match result.status with
  | some status => modify fun m => { m with status }
  | none => pure ()
  runTraps r
  let m ← get
  if m.has 'e' && result.counts && !f.isTested && result.status ≠ some 0 then Sh.finish
  else if f.isLast then Sh.finish
  else return m.status

/-- Reads the next line of a script, runs it, and goes on with the line after it. -/
def runLines (r : Runner) (i : Input) (f : Flags) (status : Nat) : Sh Nat := do
  let m ← get
  match readLine.run (.start i m.aliases m.nextDocument) with
  | .error fault =>
    set { m with line := fault.line }
    Sh.fail ("Syntax error: " ++ fault.cause.message)
  | .ok (.finished, _) => return status
  | .ok (.commands c, s) =>
    set { m with
      documents := s.documents ++ m.documents, nextDocument := s.nextDocument
      lineRead := s.input.line }
    let status ← match c with
      | none => do
        runTraps r
        pure status
      | some c => r.run (.command c f)
    if (← get).skip ≠ .nothing then return status else r.run (.lines s.input f status)

def step (r : Runner) : Goal → Sh Nat
  | .command c f => runGoal r c f
  | .loop whileFails test body f status => runLoop r whileFails test body f status
  | .lines i f status => runLines r i f status

/-- Reaches a goal. The number bounds how deep goals can be inside one another, rounds of loops
included. -/
def reach (image : Programs.Image) : Nat → Goal → Sh Nat
  | 0, _ => throw .error
  | n + 1, g => step ⟨reach image n, image⟩ g

def runner (image : Programs.Image) : Runner := ⟨reach image Programs.endless, image⟩

end JobConsole.Shell
