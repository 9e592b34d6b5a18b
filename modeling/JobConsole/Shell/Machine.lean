import JobConsole.Shell.Arithmetic
import JobConsole.Shell.Grammar
import JobConsole.Host.Program
import JobConsole.Host.Signal
import JobConsole.Text.Octets

/-! # Shells

What a shell knows while it runs a script, and the computations that it is made of. A computation reads
and changes the shell, makes calls, and may stop early: because something is wrong, because the script
says so, or because there is nothing left to do.
-/

namespace JobConsole.Shell

open JobConsole.Host

structure Variable where
  /-- Nothing if it is only declared. -/
  value : Option String
  isExported : Bool
  isReadOnly : Bool
  deriving DecidableEq, Repr

structure Function where
  line : Nat
  body : Command

/-- What was started and may have to be waited for: the number of each process, and its ending once
that is known. -/
structure Batch where
  processes : List (Nat × Option Ending)
  /-- Whether it has been asked for since it ended. -/
  isWaited : Bool
  deriving DecidableEq, Repr

/-- A descriptor and what became of what it stood for, which is nothing if it was closed. -/
abbrev Kept := List (Nat × Option Nat)

/-- Commands that are being left out. -/
inductive Skip where
  | nothing
  | break (count : Nat)
  | continue (count : Nat)
  /-- The rest of a function or of a file; with a status of its own, if it `isGiven` one. -/
  | function (isGiven : Bool)
  deriving DecidableEq, Repr

/-- Why a computation stops early. -/
inductive Stop where
  /-- Something is wrong, and it has been told. -/
  | error
  /-- The script says so. -/
  | exit
  /-- The last command is done. -/
  | finish
  deriving DecidableEq, Repr

/-- What a local variable hides. -/
inductive Hidden where
  | variable (name : String) (v : Option Variable)
  | options (letters : List Char)

structure Machine where
  bindings : List (String × Variable)
  functions : List (String × Function)
  aliases : List (String × String)
  documents : Documents
  nextDocument : Nat
  /-- What the shell is called, in messages too. -/
  name : String
  params : List String
  /-- The letters of the options that are on. -/
  options : List Char
  status : Nat
  /-- The status of the last commands whose output was put in. -/
  outputStatus : Nat
  /-- The status from before the trap that is being run. -/
  savedStatus : Option Nat
  /-- What is done on a signal, or at the end, which counts as signal zero. -/
  traps : List (Nat × String)
  /-- Signals that were caught and for which nothing has been done yet. -/
  pending : List Nat
  /-- Signals that stay ignored whatever the script says. -/
  deaf : List Nat
  /-- Signals for which the shell has said what happens. -/
  settled : List Nat
  skip : Skip
  /-- How many loops are being run. -/
  loops : Nat
  /-- The line of the command that is being run. -/
  line : Nat
  /-- The line up to which the script has been read. -/
  lineRead : Nat
  /-- The builtin command that is being run. -/
  command : Option String
  /-- The directory by the names that led to it. -/
  directory : String
  /-- What was started, by number, the newest first. -/
  jobs : List (Nat × Batch)
  lastBackground : Option Nat
  /-- The number of the first shell. -/
  number : Nat
  /-- What the commands that are being run have hidden, the innermost first. -/
  hidden : List (List Hidden)
  /-- What the redirections that are in force have displaced, the innermost first. -/
  kept : List Kept
  /-- The programs that have been looked for and found. -/
  hashed : List String
  /-- The next parameter that is looked at for options, and how many of its letters are done. -/
  optionPlace : Nat × Nat
  /-- The permissions that new files do not get. -/
  mask : Nat
  /-- Whether what is shown in front of a traced command is being worked out. -/
  isTracing : Bool
  /-- What builtin commands have printed and is not written yet. -/
  printed : String

/-- Computations of a shell. -/
abbrev Sh := ExceptT Stop (StateT Machine Act)

namespace Sh

def call (c : Call) : Sh c.Reply := ExceptT.lift (StateT.lift (Act.perform c))

/-- The program that a computation makes from a shell, where `k` makes a program of its result. -/
def toProgram {α : Type} (x : Sh α) (m : Machine) (k : Except Stop α → Machine → Program) :
    Program :=
  x.run.run m fun (r, m') => k r m'

/-- Goes on as another program. -/
def become {α : Type} (p : Program) : Sh α := ExceptT.lift (StateT.lift (Act.become p))

def fork (child : Program) : Sh Nat := ExceptT.lift (StateT.lift (Act.fork child))

/-- A moment in which others may go on. -/
def rest : Sh Unit := call .tick

/-- Lets a piece of a program run. -/
def lift {α : Type} (a : Act α) : Sh α := ExceptT.lift (StateT.lift a)

/-- The file system as it is now. -/
def files : Sh FileSystem := call .files

def write (descriptor : Nat) (s : String) : Sh (Except Fault Unit) :=
  call (.write descriptor (Text.Octets.toBytes s))

/-- Prints a text once the builtin command is done. -/
def print (s : String) : Sh Unit := modify fun m => { m with printed := m.printed ++ s }

/-- Tells something in the name of the shell. -/
def warn (message : String) : Sh Unit := do
  let m ← get
  let command := match m.command with
    | some c => c ++ ": "
    | none => ""
  let _ ← write 2 (m.name ++ ": " ++ toString m.line ++ ": " ++ command ++ message ++ "\n")

/-- Writes what has been printed, and tells whether that went well. -/
def flush : Sh Bool := do
  let m ← get
  if m.printed = "" then return true
  else
    set { m with printed := "" }
    match ← write 1 m.printed with
    | .ok _ => return true
    | .error _ => return false

/-- Stops because something is wrong. -/
def fail {α : Type} (message : String) : Sh α := do
  warn message
  let _ ← flush
  modify fun m => { m with status := 2 }
  throw .error

/-- Stops with the end of the script. -/
def finish {α : Type} : Sh α := throw .finish

end Sh

/-! ## Options -/

/-- The options by name, with the letters of those that have one. -/
def optionTable : List (String × Option Char) :=
  [ ("errexit", some 'e'), ("noglob", some 'f'), ("ignoreeof", some 'I'), ("interactive", some 'i'),
    ("monitor", some 'm'), ("noexec", some 'n'), ("stdin", some 's'), ("xtrace", some 'x'),
    ("verbose", some 'v'), ("vi", some 'V'), ("emacs", some 'E'), ("noclobber", some 'C'),
    ("allexport", some 'a'), ("notify", some 'b'), ("nounset", some 'u'), ("privileged", some 'p'),
    ("nolog", none), ("debug", none) ]

namespace Machine

def has (m : Machine) (option : Char) : Bool := m.options.contains option

/-- The letters of the options that are on, in the order in which they are shown. -/
def optionText (m : Machine) : String :=
  String.ofList ((optionTable.filterMap (·.2)).reverse.filter m.has)

def setOption (m : Machine) (c : Char) (isOn : Bool) : Machine :=
  let others := m.options.filter (· ≠ c)
  { m with options := if isOn then c :: others else others }

/-! ## Variables -/

def lookUp? (m : Machine) (name : String) : Option Variable := m.bindings.lookup name

def value? (m : Machine) (name : String) : Option String := (m.lookUp? name).bind (·.value)

def putVariable (m : Machine) (name : String) (v : Variable) : Machine :=
  if (m.lookUp? name).isSome then
    { m with bindings := m.bindings.map fun x => if x.1 = name then (name, v) else x }
  else { m with bindings := (name, v) :: m.bindings }

def dropVariable (m : Machine) (name : String) : Machine :=
  { m with bindings := m.bindings.filter (·.1 ≠ name) }

def isReadOnly (m : Machine) (name : String) : Bool := (m.lookUp? name).any (·.isReadOnly)

/-- Gives a variable a value, whatever it may be. -/
def assign (m : Machine) (name value : String) (isExported : Bool) : Machine :=
  let isExported := isExported || m.has 'a' || (m.lookUp? name).any (·.isExported)
  let m := m.putVariable name ⟨some value, isExported, m.isReadOnly name⟩
  if name = "PATH" then { m with hashed := [] }
  else if name = "OPTIND" then
    { m with optionPlace := ((Text.Integer.natural? (some 10) value.toList).elim 1 (·.1), 0) }
  else m

/-- Takes note of a program that has been found. -/
def remember (m : Machine) (name : String) : Machine :=
  if name.toList.contains '/' || m.hashed.contains name then m
  else { m with hashed := m.hashed ++ [name] }

/-- The variables that programs see. -/
def environment (m : Machine) : List (String × String) :=
  m.bindings.filterMap fun (name, v) =>
    if v.isExported then v.value.map (name, ·) else none

/-- The variables that an expression sees. -/
def scope (m : Machine) : Arithmetic.Scope := ⟨m.value?, m.isReadOnly⟩

/-- What separates fields where nothing else is said. -/
def standardSeparators : String := " \t\n"

def findTrap (m : Machine) (s : Nat) : Option String := m.traps.lookup s

/-- Whether something is to be done on a signal. -/
def hasTraps (m : Machine) : Bool := m.traps.any (·.2 ≠ "")

end Machine

namespace Sh

/-- Gives a variable a value; a variable that is read only stops the shell. -/
def setVariable (name value : String) (isExported : Bool) : Sh Unit := do
  let m ← get
  if !isName name then fail (name ++ ": bad variable name")
  else if m.isReadOnly name then fail (name ++ ": is read only")
  else set (m.assign name value isExported)

def unsetVariable (name : String) : Sh Unit := do
  let m ← get
  if !isName name then fail (name ++ ": bad variable name")
  else if m.isReadOnly name then fail (name ++ ": is read only")
  else set (m.dropVariable name)

/-- A number that a text stands for, which is not negative. -/
def number (s : String) : Sh Nat := do
  match Text.Integer.read? (some 10) s.toList with
  | some (n, rest) =>
    if rest.all Text.Integer.isBlank && 0 ≤ n && n < (Nat.pow 2 31 : Nat) then return n.toNat
    else fail ("Illegal number: " ++ s)
  | none => fail ("Illegal number: " ++ s)

end Sh

end JobConsole.Shell
