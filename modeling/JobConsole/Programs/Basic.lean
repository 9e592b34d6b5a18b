import JobConsole.Host.Program
import JobConsole.Text.Octets

/-! # Invocations

A program is started with a name, arguments and an environment, all of them texts of octets. It writes
its output when it has all of it, and tells what is wrong as it happens.
-/

namespace JobConsole.Programs

open JobConsole.Host

structure Invocation where
  /-- What the program was called. -/
  name : String
  args : List String
  environment : List (String × String)

/-- The programs that a system has, by what they are. -/
abbrev Image := String → Invocation → Program

/-- As often as anything is ever done. -/
def endless : Nat := Nat.pow 10 12

/-- Writes a text and tells whether that went well. -/
def put (descriptor : Nat) (s : String) : Act (Except Fault Unit) :=
  if s = "" then pure (.ok ()) else Act.perform (.write descriptor (Text.Octets.toBytes s))

/-- How many octets are read at once. -/
def blockSize : Nat := 131072

/-- All that is read from a descriptor. -/
def drainFrom (descriptor : Nat) : Nat → List UInt8 → Act (Except Fault (List UInt8))
  | 0, os => pure (.ok os)
  | n + 1, os => do
    match ← Act.perform (.read descriptor blockSize) with
    | .error e => return .error e
    | .ok [] => return .ok os
    | .ok more => drainFrom descriptor n (os ++ more)

/-- All that is left to read. -/
def drain (descriptor : Nat) : Act (Except Fault (List UInt8)) := drainFrom descriptor endless []

namespace Invocation

def lookUp? (i : Invocation) (name : String) : Option String := i.environment.lookup name

/-- Whether texts are UTF-8 for the program, or of octets that mean nothing beyond ASCII. -/
def isUnicode (i : Invocation) : Bool :=
  let given := ["LC_ALL", "LC_CTYPE", "LANG"].findSome? fun n =>
    (i.lookUp? n).filter (· ≠ "")
  match given with
  | some s =>
    let s := s.toLower
    s.endsWith ".utf-8" || s.endsWith ".utf8"
  | none => false

/-- Tells what is wrong. -/
def complain (i : Invocation) (message : String) : Act Unit := do
  let _ ← put 2 (i.name ++ ": " ++ message ++ "\n")

/-- Where to look for help. -/
def advise (i : Invocation) : Act Unit := do
  let _ ← put 2 ("Try '" ++ i.name ++ " --help' for more information.\n")

/-- Ends with a complaint about the arguments. -/
def misuse (i : Invocation) (message : String) : Act Nat := do
  i.complain message
  i.advise
  return 1

/-- Writes the whole output and ends with a status. -/
def conclude (i : Invocation) (output : String) (status : Nat) : Act Nat := do
  match ← put 1 output with
  | .ok _ => return status
  | .error e =>
    i.complain ("write error: " ++ e.reason)
    return 1

/-- Closes the standard input if it is one of the inputs, which are given by name. -/
def closeInput (i : Invocation) (names : List String) (what : String) (status : Nat) : Act Nat := do
  if names.contains "-" then
    match ← Act.perform (.close 0) with
    | .ok _ => return status
    | .error e =>
      i.complain (what ++ ": " ++ e.reason)
      return 1
  else return status

end Invocation

end JobConsole.Programs
