import JobConsole.Programs.Basic
import JobConsole.Shell.Redirection

/-! # Goals

What a shell is asked to do: to run a command, to go round in a loop, or to go through the lines of a
script. Whoever runs commands is given a runner for the goals inside them.
-/

namespace JobConsole.Shell

open JobConsole.Host

/-- How a command is run. -/
structure Flags where
  /-- Whether the shell ends with it. -/
  isLast : Bool
  /-- Whether its failure is an answer and no mishap. -/
  isTested : Bool
  deriving DecidableEq, Repr

namespace Flags

def plain : Flags := ⟨false, false⟩

def tested : Flags := ⟨false, true⟩

/-- The flags of what does not end the shell. -/
def inner (f : Flags) : Flags := { f with isLast := false }

end Flags

inductive Goal where
  | command (c : Command) (f : Flags)
  /-- Another round of a loop, whose last round came to a status. -/
  | loop (whileFails : Bool) (test body : Command) (f : Flags) (status : Nat)
  /-- The lines of a script; those before came to a status. -/
  | lines (i : Input) (f : Flags) (status : Nat)

structure Runner where
  run : Goal → Sh Nat
  /-- The programs that can be started. -/
  image : Programs.Image

namespace Runner

/-- Goes through the lines of a text. -/
def script (r : Runner) (text : String) (f : Flags) : Sh Nat := do
  let outer := (← get).lineRead
  let status ← r.run (.lines (Input.ofText text) f 0)
  modify fun m => { m with lineRead := outer }
  return status

end Runner

/-! ## Undoing -/

/-- Puts back what redirections have displaced until so many are left. -/
def unwindKept (depth : Nat) : Sh Unit := do
  let m ← get
  let outer := m.kept.drop (m.kept.length - depth)
  let inner := m.kept.take (m.kept.length - depth)
  set { m with kept := outer }
  inner.forM Redirection.restore

/-- Keeps the innermost redirections for good. -/
def keepForGood : Sh Unit := do
  let m ← get
  match m.kept with
  | [] => return ()
  | k :: outer =>
    set { m with kept := outer }
    Redirection.discard k

/-- The machine in which what was hidden is seen again. -/
def Machine.reveal (m : Machine) : Hidden → Machine
  | .variable name (some v) =>
    let m := m.putVariable name v
    if name = "OPTIND" then m.assign name (v.value.getD "") v.isExported else m
  | .variable name none => m.dropVariable name
  | .options letters => { m with options := letters }

/-- Shows again what commands have hidden until so many are left. -/
def unwindHidden (depth : Nat) : Sh Unit := modify fun m =>
  let outer := m.hidden.drop (m.hidden.length - depth)
  let inner := m.hidden.take (m.hidden.length - depth)
  { inner.flatten.foldl Machine.reveal m with hidden := outer }

/-- Makes a variable, or all options, seen only until the innermost command ends. -/
def hide (name : String) : Sh Unit := modify fun m =>
  match m.hidden with
  | [] => m
  | frame :: outer =>
    if name = "-" then { m with hidden := (.options m.options :: frame) :: outer }
    else { m with hidden := (.variable name (m.lookUp? name) :: frame) :: outer }

/-! ## Traps -/

/-- Does what is to be done on the signals that were caught. -/
def runTrapsFor (r : Runner) (status : Nat) : List Nat → Sh Unit
  | [] => return ()
  | s :: rest => do
    if (← get).skip ≠ .nothing then modify fun m => { m with pending := s :: rest }
    else
      match (← get).findTrap s with
      | none => runTrapsFor r status rest
      | some t =>
        let _ ← r.script t .plain
        modify fun m => if m.skip = .function true then m else { m with status }
        runTrapsFor r status rest

def runTraps (r : Runner) : Sh Unit := do
  let m ← get
  if m.traps.any (·.1 ≠ 0) || !m.pending.isEmpty then
    let caught ← Sh.call .pending
    let pending := Signal.all.filter fun s => caught.contains s || m.pending.contains s
    if !pending.isEmpty then
      let status := m.savedStatus.getD m.status
      set { m with savedStatus := some status, pending := [] }
      runTrapsFor r status pending
      modify fun m' => { m' with savedStatus := m.savedStatus }

/-! ## Endings -/

/-- What is forgotten when the script stops early. -/
def reset (isExit : Bool) : Sh Unit := do
  modify fun m =>
    let status := match m.savedStatus with
      | some s => if isExit || m.skip = .function false then s else m.status
      | none => m.status
    { m with status, savedStatus := none, skip := .nothing, loops := 0, isTracing := false }
  unwindKept 0

/-- The last things that a shell does: what was to be done at the end. -/
def Runner.conclude (r : Runner) (result : Except Stop Nat) : Sh Unit := do
  match result with
  | .error s => reset (s = .exit)
  | .ok _ => pure ()
  let m ← get
  set { m with savedStatus := some m.status }
  match m.findTrap 0 with
  | none => reset (result matches .error .exit)
  | some t =>
    modify fun m => { m with traps := m.traps.filter (·.1 ≠ 0), skip := .nothing, command := none }
    let trapped : Except Stop Nat ←
      tryCatch (do return .ok (← r.script t .plain)) fun s => return .error s
    match trapped with
    | .ok _ =>
      modify fun m => { m with skip := .function false }
      reset false
    | .error s => reset (s = .exit)
  let _ ← Sh.flush

/-- The program of a shell that has come to a result. -/
def Runner.ending (r : Runner) (result : Except Stop Nat) (m : Machine) : Program :=
  Sh.toProgram (r.conclude result) m fun _ m' => .exit m'.status

/-- The program of a shell. -/
def Runner.program (r : Runner) (x : Sh Nat) (m : Machine) : Program := Sh.toProgram x m r.ending

end JobConsole.Shell
