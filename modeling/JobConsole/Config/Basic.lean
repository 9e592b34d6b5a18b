import JobConsole.Bus.Basic
import JobConsole.Files.Path
import JobConsole.Text.Blank

/-! # Configuration

Settings of a console, read from named variables of the environment. Variables are looked at in a
fixed order and the first that cannot be used counts. Limits of the job engine may be padded with
blanks; the other numbers may not.
-/

namespace JobConsole

inductive LogFormat where
  | pretty
  | json
  deriving DecidableEq, Repr

def LogFormat.name : LogFormat → String
  | pretty => "pretty"
  | json => "json"

/-- Settings of the job engine. -/
structure JobsConfig where
  logCapacity : Nat
  /-- Most jobs that run at a time; zero means no limit. -/
  maxConcurrent : Nat
  maxSubscribers : Nat
  workingDir : String
  cliProgram : String
  outputRoot : String
  deriving DecidableEq, Repr

structure ServerConfig where
  host : String
  port : Nat
  corsOrigins : List String
  requestTimeoutSecs : Nat
  shutdownTimeoutSecs : Nat
  keepAliveSecs : Nat
  logFormat : LogFormat
  jobs : JobsConfig
  deriving DecidableEq, Repr

/-- Seconds between keep-alives, never fewer than one. -/
def ServerConfig.keepAlive (c : ServerConfig) : Nat := max c.keepAliveSecs 1

/-! ## Numbers -/

inductive NumberFault where
  | empty
  | invalidDigit
  | tooLarge
  deriving DecidableEq, Repr

namespace NumberFault

def message : NumberFault → String
  | empty => "cannot parse integer from empty string"
  | invalidDigit => "invalid digit found in string"
  | tooLarge => "number too large to fit in target type"

def label : NumberFault → String
  | empty => "Empty"
  | invalidDigit => "InvalidDigit"
  | tooLarge => "PosOverflow"

end NumberFault

/-- Reads digits on top of `n`, below `limit`. The first fault from left to right counts. -/
def readDigits (limit n : Nat) : List Char → Except NumberFault Nat
  | [] => .ok n
  | c :: r =>
    if c.isDigit then
      let m := 10 * n + (c.toNat - 48)
      if m < limit then readDigits limit m r else .error .tooLarge
    else .error .invalidDigit

/-- A decimal number below `limit`; a plus sign may stand in front. -/
def readNumber (limit : Nat) (s : List Char) : Except NumberFault Nat :=
  match s with
  | [] => .error .empty
  | ['+'] => .error .invalidDigit
  | '+' :: r => readDigits limit 0 r
  | r => readDigits limit 0 r

/-! ## Environment -/

inductive ConfigError where
  | serverNumber (key : String) (bits : Nat) (fault : NumberFault)
  | jobsNumber (key : String) (fault : NumberFault)
  /-- An origin that cannot stand in a header. -/
  | originText (origin : String)
  /-- The origin that stands for all origins. -/
  | originWildcard
  /-- More slots than can be counted. -/
  | tooManySlots
  deriving DecidableEq, Repr

def ConfigError.message : ConfigError → String
  | serverNumber v bits f =>
    v ++ " must be a valid u" ++ toString bits ++ ": ParseIntError \x7b kind: " ++ f.label ++ " \x7d"
  | jobsNumber v f => v ++ " must be a valid number: " ++ f.message
  | originText o => "Invalid CORS origin '" ++ o ++ "': failed to parse header value"
  | originWildcard =>
    "Wildcard origin (`*`) cannot be passed to `AllowOrigin::list`. Use `AllowOrigin::any()` instead"
  | tooManySlots =>
    "a semaphore may not have more than MAX_PERMITS permits (" ++ toString (Nat.pow 2 61 - 1) ++ ")"

abbrev Environment := Dict String

def serverNumber (env : Environment) (key : String) (bits fallback : Nat) :
    Except ConfigError Nat :=
  match env.get? key with
  | none => .ok fallback
  | some s =>
    match readNumber (Nat.pow 2 bits) s.toList with
    | .ok n => .ok n
    | .error f => .error (.serverNumber key bits f)

def jobsNumber (env : Environment) (key : String) (fallback : Nat) :
    Except ConfigError Nat :=
  match env.get? key with
  | none => .ok fallback
  | some s =>
    match readNumber (Nat.pow 2 64) (Text.trimChars s.toList) with
    | .ok n => .ok n
    | .error f => .error (.jobsNumber key f)

def splitList (s : String) : List String :=
  ((Path.splitAt ',' s.toList).map fun p => Text.trim (String.ofList p)).filter (· ≠ "")

def JobsConfig.fromEnvironment (env : Environment) (current : String) :
    Except ConfigError JobsConfig := do
  let logCapacity ← jobsNumber env "JOB_LOG_CAPACITY" Log.defaultCapacity
  let maxConcurrent ← jobsNumber env "JOB_MAX_CONCURRENT" 0
  let maxSubscribers ← jobsNumber env "JOB_MAX_SUBSCRIBERS" Bus.defaultLimit
  let cliProgram := ((env.get? "REFINERY_CLI").filter fun s => !Text.isAllBlank s).getD "refinery"
  return {
    logCapacity, maxConcurrent, maxSubscribers, cliProgram
    workingDir := (env.get? "JOB_WORKING_DIR").getD current
    outputRoot := (env.get? "REFINERY_OUTPUT_ROOT").getD "./data/outputs" }

def ServerConfig.fromEnvironment (env : Environment) (current : String) :
    Except ConfigError ServerConfig := do
  let port ← serverNumber env "PORT" 16 3000
  let requestTimeoutSecs ← serverNumber env "REQUEST_TIMEOUT_SECS" 64 30
  let shutdownTimeoutSecs ← serverNumber env "SHUTDOWN_TIMEOUT_SECS" 64 30
  let keepAliveSecs ← serverNumber env "LIVE_KEEPALIVE_SECS" 64 25
  let isJson := (env.get? "LOG_FORMAT").any fun s => s.toLower = "json"
  let jobs ← JobsConfig.fromEnvironment env current
  return {
    port, requestTimeoutSecs, shutdownTimeoutSecs, keepAliveSecs, jobs
    host := (env.get? "HOST").getD "0.0.0.0"
    corsOrigins := splitList ((env.get? "CORS_ORIGINS").getD "http://localhost:5173")
    logFormat := if isJson then .json else .pretty }

end JobConsole
