import JobConsole.Http.Message
import JobConsole.Refinery.Command
import JobConsole.Registry.Completion

/-! # The console

One running console: its settings, its jobs, the files that it sees, and the clock that keep-alives
are timed by.
-/

namespace JobConsole

structure Console where
  config : ServerConfig
  registry : Registry
  files : FileSystem
  /-- Whether the server is shutting down. -/
  shutdown : Bool
  /-- Seconds since the start. -/
  clock : Nat

namespace Console

def checkOrigins : List String → Except ConfigError Unit
  | [] => .ok ()
  | o :: rest => if Http.isHeaderText o then checkOrigins rest else .error (.originText o)

/-- A console without jobs, if the settings can be used. -/
def start (c : ServerConfig) (fs : FileSystem) : Except ConfigError Console :=
  match Registry.new c.jobs with
  | none => .error .tooManySlots
  | some r =>
    match checkOrigins c.corsOrigins with
    | .error e => .error e
    | .ok () =>
      if c.corsOrigins.contains "*" then .error .originWildcard
      else .ok ⟨c, r, fs, false, 0⟩

def builder (c : Console) : Refinery.Builder := .new c.config.jobs

def setBus (c : Console) (b : Bus) : Console := { c with registry := { c.registry with bus := b } }

/-- Opens a live channel on a job, or on all jobs. -/
def openChannel (c : Console) (id : Option String) :
    Except Live.OpenError (Live.Channel × Console) :=
  let opened := match id with
    | some id => Live.Channel.openJob c.registry id c.config.keepAlive c.clock
    | none => Live.Channel.openAll c.registry c.config.keepAlive c.clock
  match opened with
  | .error e => .error e
  | .ok (ch, r) => .ok (ch, { c with registry := r })

def closeChannel (c : Console) (ch : Live.Channel) : Live.Channel × Console :=
  let (ch', b) := ch.close c.registry.bus
  (ch', c.setBus b)

/-- Lets the completion handler work off what it has received. -/
def settle (c : Console) (h : CompletionHandler) (now : Timestamp) : Console :=
  { c with registry := h.settle c.registry c.files now }

end Console

end JobConsole
