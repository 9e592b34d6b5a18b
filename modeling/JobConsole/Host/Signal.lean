/-! # Signals

Signals are numbered from 1 to 64. Those from 34 on have no meaning of their own, and their names
count from the two ends of their range.
-/

namespace JobConsole.Host.Signal

/-- The names of the signals from 1 on, and what is said of a program that one of them ends. -/
def table : List (String × String) :=
  [ ("HUP", "Hangup"), ("INT", "Interrupt"), ("QUIT", "Quit"), ("ILL", "Illegal instruction"),
    ("TRAP", "Trace/breakpoint trap"), ("ABRT", "Aborted"), ("BUS", "Bus error"),
    ("FPE", "Floating point exception"), ("KILL", "Killed"), ("USR1", "User defined signal 1"),
    ("SEGV", "Segmentation fault"), ("USR2", "User defined signal 2"), ("PIPE", "Broken pipe"),
    ("ALRM", "Alarm clock"), ("TERM", "Terminated"), ("STKFLT", "Stack fault"),
    ("CHLD", "Child exited"), ("CONT", "Continued"), ("STOP", "Stopped (signal)"),
    ("TSTP", "Stopped"), ("TTIN", "Stopped (tty input)"), ("TTOU", "Stopped (tty output)"),
    ("URG", "Urgent I/O condition"), ("XCPU", "CPU time limit exceeded"),
    ("XFSZ", "File size limit exceeded"), ("VTALRM", "Virtual timer expired"),
    ("PROF", "Profiling timer expired"), ("WINCH", "Window changed"), ("IO", "I/O possible"),
    ("PWR", "Power failure"), ("SYS", "Bad system call") ]

def interrupt : Nat := 2

def quit : Nat := 3

def kill : Nat := 9

def arithmetic : Nat := 8

def pipe : Nat := 13

def terminate : Nat := 15

def stackFault : Nat := 16

def first : Nat := 1

def last : Nat := 64

def firstUnnamed : Nat := 34

/-- The name of a signal, without what all names begin with. -/
def name (n : Nat) : String :=
  match table[n - 1]? with
  | some (s, _) => s
  | none =>
    if n < firstUnnamed then toString n
    else if n = firstUnnamed then "RTMIN"
    else if n < 50 then "RTMIN+" ++ toString (n - firstUnnamed)
    else if n < last then "RTMAX-" ++ toString (last - n)
    else "RTMAX"

def all : List Nat := List.range' 1 last

def description (n : Nat) : String :=
  match table[n - 1]? with
  | some (_, s) => s
  | none =>
    if firstUnnamed ≤ n ∧ n ≤ last then "Real-time signal " ++ toString (n - firstUnnamed)
    else "Unknown signal " ++ toString n

/-- What a signal does to a program that says nothing about it. -/
inductive Effect where
  | ends
  | nothing
  | stops
  | resumes
  deriving DecidableEq, Repr

def effect (n : Nat) : Effect :=
  if n = 17 ∨ n = 23 ∨ n = 28 then .nothing
  else if n = 18 then .resumes
  else if 19 ≤ n ∧ n ≤ 22 then .stops
  else .ends

end JobConsole.Host.Signal
