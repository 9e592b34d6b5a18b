import JobConsole.Shell.Expansion

/-! # Redirections

A redirection makes a descriptor stand for something else while a command runs. Words are expanded for
all redirections of a command before the first of them is made. What a descriptor stood for is kept
under a number that programs do not see, and put back afterwards.
-/

namespace JobConsole.Shell

open JobConsole.Host

/-- What a descriptor is made to stand for, with its words expanded. -/
inductive Target where
  | path (p : String) (mode : OpenMode) (overwrites : Bool)
  | descriptor (n : Nat)
  | closed
  | document (id : Nat)
  deriving DecidableEq, Repr

namespace Redirection

/-- The descriptor that a word stands for. A word that stands for none is a mistake of the script. -/
def copyTarget (s : String) : Sh Target := do
  match s.toList with
  | ['-'] => return .closed
  | [c] => if c.isDigit then return .descriptor (c.toNat - '0'.toNat) else refuse
  | _ => refuse
where
  refuse : Sh Target := do
    modify fun m => { m with line := m.lineRead }
    Sh.fail "Syntax error: Bad fd number"

def prepare (run : Substitution) (r : Redirection (Option Command)) : Sh (Nat × Target) := do
  let d := r.descriptor
  match r.source with
  | .input w => return (d, .path (← expandText run w) .input false)
  | .output w => return (d, .path (← expandText run w) .output false)
  | .overwrite w => return (d, .path (← expandText run w) .output true)
  | .append w => return (d, .path (← expandText run w) .append false)
  | .update w => return (d, .path (← expandText run w) .update false)
  | .descriptor n => return (d, .descriptor n)
  | .closed => return (d, .closed)
  | .copy w => return (d, ← copyTarget (← expandText run w))
  | .document id => return (d, .document id)

/-! ## Opening -/

def openingFault (mode : OpenMode) (p : String) (e : Fault) : String :=
  if mode = .input then
    "cannot open " ++ p ++ ": " ++ (if e.isAbsence then "No such file" else e.reason)
  else
    "cannot create " ++ p ++ ": " ++ (if e.isAbsence then "Directory nonexistent" else e.reason)

def openPath (p : String) (mode : OpenMode) : Sh Nat := do
  match ← Sh.call (.openFile (Text.Octets.decode p) mode) with
  | .ok d => return d
  | .error e => Sh.fail (openingFault mode p e)

/-- Opens a file for output where no file may be overwritten. -/
def openSparing (p : String) : Sh Nat := do
  match (← Sh.files).stat (Text.Octets.decode p) with
  | .error _ => openPath p .fresh
  | .ok (.file _) => Sh.fail (openingFault .output p (.file .alreadyExists))
  | .ok _ => openPath p .existing

/-- The longest document that is written to its pipe before the command runs. -/
def documentBound : Nat := 4096

/-- A descriptor that reads a document. -/
def openDocument (run : Substitution) (id : Nat) : Sh Nat := do
  let (r, w) ← Sh.call .pipe
  let text ← match (← get).documents.lookup id with
    | none => pure ""
    | some d => if d.literal then pure (Word.text d.body) else expandDocument run d.body
  let octets := Text.Octets.toBytes text
  if octets.length ≤ documentBound then
    let _ ← Sh.call (.write w octets)
  else
    let writer : Act Nat := do
      let _ ← Act.perform (.close r)
      let _ ← Act.perform (.write w octets)
      return 0
    let _ ← Sh.fork writer.toProgram
  let _ ← Sh.call (.close w)
  return r

/-! ## Making and undoing -/

/-- Keeps what a descriptor stands for under another number. -/
def keep (d : Nat) : Sh (Option Nat) := do
  match ← Sh.call (.keep d 10) with
  | .ok n =>
    let _ ← Sh.call (.close d)
    return some n
  | .error _ => return none

/-- Makes a descriptor stand for what another one stands for. -/
def copy (source target : Nat) : Sh Unit := do
  match ← Sh.call (.copy source target) with
  | .ok _ => return ()
  | .error e => Sh.fail (toString source ++ ": " ++ e.reason)

/-- Opens what a descriptor is to stand for; nothing if it is to be closed. -/
def openTarget (run : Substitution) : Target → Sh (Option Nat)
  | .path p mode overwrites => do
    if mode = .output && !overwrites && (← get).has 'C' then return some (← openSparing p)
    else return some (← openPath p mode)
  | .document id => do return some (← openDocument run id)
  | .descriptor n => return some n
  | .closed => return none

/-- Makes a descriptor stand for what was opened, or closes it. -/
def connect (d : Nat) (isCopy : Bool) : Option Nat → Sh Unit
  | none => do
    let _ ← Sh.call (.close d)
  | some n => do
    if n ≠ d then
      copy n d
      if !isCopy then
        let _ ← Sh.call (.close n)

def isCopy : Target → Bool
  | .descriptor _ => true
  | _ => false

/-- Puts back what is kept. -/
def restore : Kept → Sh Unit
  | [] => return ()
  | (d, none) :: rest => do
    let _ ← Sh.call (.close d)
    restore rest
  | (d, some n) :: rest => do
    let _ ← Sh.call (.copy n d)
    let _ ← Sh.call (.close n)
    restore rest

/-- Gives up what is kept. -/
def discard : Kept → Sh Unit
  | [] => return ()
  | (_, none) :: rest => discard rest
  | (_, some n) :: rest => do
    let _ ← Sh.call (.close n)
    discard rest

end Redirection

/-- A computation whose failure is a result. -/
def attempt {α : Type} (x : Sh α) : Sh (Option α) :=
  tryCatch (do return some (← x)) fun e => if e = .error then return none else throw e

/-- Makes redirections. The result tells what was kept, and whether all of them were made. With
`keeps` nothing that a descriptor stood for is lost. -/
def redirectAll (run : Substitution) (keeps : Bool) : Kept → List (Nat × Target) → Sh (Kept × Bool)
  | kept, [] => return (kept, true)
  | kept, (d, t) :: rest => do
    match ← attempt (Redirection.openTarget run t) with
    | none => return (kept, false)
    | some opened =>
      let isCopy := Redirection.isCopy t
      if isCopy && opened = some d then redirectAll run keeps kept rest
      else
        let kept ←
          if !keeps || (kept.lookup d).isSome then pure kept
          else if opened = some d then pure ((d, none) :: kept)
          else do pure ((d, ← Redirection.keep d) :: kept)
        match ← attempt (Redirection.connect d isCopy opened) with
        | none => return (kept, false)
        | some _ => redirectAll run keeps kept rest

end JobConsole.Shell
