import JobConsole.Artifact
import JobConsole.Job.Basic

/-! # Job events

One notification about one job. Its kind is tagged in the JSON form, and the name of an event is the
event name of its frame on a live stream.
-/

namespace JobConsole

inductive Payload where
  | queued (label : String) (command : List String)
  | started (pid : Option Nat)
  | log (entry : LogEntry)
  | error (message : String)
  | finished (status : Status) (exitCode : Option Int) (signal error : Option String)
  | artifactReady (artifacts : List Artifact)
  | stage (stage : String) (detail : Option Json)
  | fileAccepted (fileName : String) (size : Nat) (path : Option String)

/-- The kinds of payload, in the order of their numbers. -/
inductive EventKind where
  | queued
  | started
  | log
  | error
  | finished
  | artifactReady
  | stage
  | fileAccepted
  deriving DecidableEq, Repr

namespace EventKind

def all : List EventKind :=
  [queued, started, log, error, finished, artifactReady, stage, fileAccepted]

def name : EventKind → String
  | queued => "queued"
  | started => "started"
  | log => "log"
  | error => "error"
  | finished => "finished"
  | artifactReady => "artifact-ready"
  | stage => "stage"
  | fileAccepted => "file-accepted"

/-- What a kind is called, word by word. -/
def words : EventKind → List String
  | queued => ["queued"]
  | started => ["started"]
  | log => ["log"]
  | error => ["error"]
  | finished => ["finished"]
  | artifactReady => ["artifact", "ready"]
  | stage => ["stage"]
  | fileAccepted => ["file", "accepted"]

/-- The tag of a kind in JSON: its words, with hyphens between them. -/
def tag (k : EventKind) : String := "-".intercalate k.words

def ofTag? (s : String) : Option EventKind := all.find? (·.tag = s)

/-- Events are tagged by their names. -/
theorem tag_eq_name (k : EventKind) : k.tag = k.name := by
  cases k <;> rfl

theorem ofTag?_tag (k : EventKind) : ofTag? k.tag = some k := by
  cases k <;> decide

end EventKind

def Payload.kind : Payload → EventKind
  | queued .. => .queued
  | started .. => .started
  | log .. => .log
  | error .. => .error
  | finished .. => .finished
  | artifactReady .. => .artifactReady
  | stage .. => .stage
  | fileAccepted .. => .fileAccepted

structure Event where
  jobId : String
  timestamp : Timestamp
  payload : Payload

namespace Event

def queued (j : Job) (now : Timestamp) : Event :=
  ⟨j.id, now, .queued j.label j.command⟩

/-- The event that matches the terminal state of a job. -/
def finished (j : Job) (now : Timestamp) : Event :=
  ⟨j.id, now, .finished j.status j.exitCode j.signal j.error⟩

def name (e : Event) : String := e.payload.kind.name

def isFinished (e : Event) : Bool := e.payload.kind = .finished

end Event

end JobConsole
