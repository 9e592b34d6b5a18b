import JobConsole.Time.Timestamp

/-! # Job log

A log holds the newest entries of one job, in order, up to a capacity of at least one. Pushing onto
a full log evicts the oldest entry and marks the log as truncated for good.
-/

namespace JobConsole

inductive Stream where
  | stdout
  | stderr
  | error
  deriving DecidableEq, Repr

namespace Stream

def all : List Stream := [stdout, stderr, error]

def name : Stream → String
  | stdout => "stdout"
  | stderr => "stderr"
  | error => "error"

def ofName? (s : String) : Option Stream := all.find? (·.name = s)

theorem ofName?_name (s : Stream) : ofName? s.name = some s := by
  cases s <;> decide

end Stream

structure LogEntry where
  stream : Stream
  message : String
  timestamp : Timestamp
  deriving DecidableEq

structure Log where
  entries : List LogEntry
  truncated : Bool
  capacity : Nat
  deriving DecidableEq

namespace Log

def defaultCapacity : Nat := 2000

def new (capacity : Nat) : Log := ⟨[], false, max capacity 1⟩

/-- Whether the next push evicts an entry. -/
def isFull (l : Log) : Bool := l.capacity ≤ l.entries.length

/-- Appends an entry after evicting as many old ones as the capacity asks for. -/
def push (l : Log) (e : LogEntry) : Log :=
  { l with
    entries := l.entries.drop (l.entries.length + 1 - l.capacity) ++ [e]
    truncated := l.truncated || l.isFull }

end Log

end JobConsole
