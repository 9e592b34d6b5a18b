import JobConsole.Files.System
import JobConsole.Host.Fault

/-! # Programs as trees of calls

A program is what it asks of the system and what it does with each answer. Between two calls it only
computes. A program that starts a second one goes on beside it; one that is replaced never comes back.
-/

namespace JobConsole.Host

/-- How a program ends. -/
inductive Ending where
  | code (n : Nat)
  | signal (n : Nat)
  deriving DecidableEq, Repr

/-- What a path is opened for. -/
inductive OpenMode where
  | input
  /-- Writing into an emptied file. -/
  | output
  | append
  /-- Reading and writing. -/
  | update
  /-- Writing into a file that must not be there yet. -/
  | fresh
  /-- Writing into something that must be there. -/
  | existing
  deriving DecidableEq, Repr

/-- What a program wants to happen on a signal. -/
inductive Disposition where
  | standard
  | ignored
  /-- The program is told of the signal when it asks. -/
  | caught
  deriving DecidableEq, Repr

/-- How long a program waits for the end of another one that it started. -/
inductive Patience where
  | none
  /-- Until a signal is caught. -/
  | interruptible
  | endless
  deriving DecidableEq, Repr

/-- What waiting comes to. -/
inductive Awaited where
  | ended (number : Nat) (ending : Ending)
  | nothing
  | interrupted
  deriving DecidableEq, Repr

inductive Call where
  /-- Lets a moment pass. -/
  | tick
  /-- Asks for the numbers of the process and of its parent. -/
  | identity
  | openFile (path : String) (mode : OpenMode)
  | close (descriptor : Nat)
  /-- Makes the second descriptor stand for what the first one stands for. -/
  | copy (source target : Nat)
  /-- Copies a descriptor to a free one from `least` on, which a replacing program does not see. -/
  | keep (descriptor least : Nat)
  | pipe
  | read (descriptor count : Nat)
  | write (descriptor : Nat) (octets : List UInt8)
  | wait (patience : Patience)
  | kill (number signal : Nat)
  | dispose (signal : Nat) (disposition : Disposition)
  | disposition (signal : Nat)
  /-- Asks for the signals caught since the last time. -/
  | pending
  /-- Asks which regular file a descriptor stands for, its place in it, and whether each write goes to
  the end. -/
  | locate (descriptor : Nat)
  /-- Moves the place in a regular file back. -/
  | rewind (descriptor count : Nat)
  /-- Rests, and asks whether no signal came in between. -/
  | sleep (microseconds : Nat)
  | sleepUntil (time : Nat)
  | files
  | enter (path : String)
  | makeDirectory (path : String)
  /-- Makes way for another program: what is kept is closed, and caught signals are standard again. -/
  | replace

/-- The type of the answer to a call. -/
def Call.Reply : Call → Type
  | tick | replace | dispose .. | rewind .. => Unit
  | locate _ => Option (Location × Nat × Bool)
  | identity => Nat × Nat
  | openFile .. => Except Fault Nat
  | close _ | copy .. | kill .. | enter _ | makeDirectory _ | write .. => Except Fault Unit
  | keep .. => Except Fault Nat
  | pipe => Nat × Nat
  | read .. => Except Fault (List UInt8)
  | wait _ => Awaited
  | disposition _ => Disposition
  | pending => List Nat
  | sleep _ | sleepUntil _ => Bool
  | files => FileSystem

inductive Program where
  | exit (code : Nat)
  | call (c : Call) (next : c.Reply → Program)
  /-- Starts a second program; the first one learns its number. -/
  | fork (child : Program) (next : Nat → Program)

instance : Inhabited Program := ⟨.exit 0⟩

/-- A piece of a program that computes a value, given what the program does with the value. -/
def Act (α : Type) : Type := (α → Program) → Program

namespace Act

instance : Monad Act where
  pure a := fun k => k a
  bind m f := fun k => m fun a => f a k

def perform (c : Call) : Act c.Reply := fun k => .call c k

def fork (child : Program) : Act Nat := fun k => .fork child k

/-- Goes on as another program, whatever was to come. -/
def become {α : Type} (p : Program) : Act α := fun _ => p

def exit {α : Type} (code : Nat) : Act α := become (.exit code)

/-- The program that a piece without a value makes. -/
def toProgram (m : Act Nat) : Program := m .exit

end Act

end JobConsole.Host
