import JobConsole.Wire.Job

/-! # JSON form of events

An event is one flat object: the job id, the timestamp, the tag `type` and the fields of the payload.
Reading takes the object in whole, picks the payload by its tag, which may also be the number of the
kind, and then reads the fields. A payload that stands alone is tagged by name only, and may be an array
of the tag and the fields in the declared order.
-/

namespace JobConsole

def Payload.members : Payload → List (String × Json)
  | queued label command => [("label", .text label), ("command", .texts command)]
  | started pid => [("pid", .orNull .nat pid)]
  | log entry => [("entry", entry.toJson)]
  | error message => [("message", .text message)]
  | finished status exitCode signal failure =>
    [("status", .text status.name), ("exitCode", .orNull .int exitCode),
      ("signal", .orNull .text signal), ("error", .orNull .text failure)]
  | artifactReady artifacts => [("artifacts", .array (artifacts.map Artifact.toJson))]
  | stage name detail => [("stage", .text name), ("detail", detail.getD .null)]
  | fileAccepted fileName size path =>
    [("fileName", .text fileName), ("size", .nat size), ("path", .orNull .text path)]

def Event.toJson (e : Event) : Json :=
  .object <| [("jobId", .text e.jobId), ("timestamp", e.timestamp.toJson),
    ("type", .text e.payload.kind.tag)] ++ e.payload.members

namespace Payload

structure Draft where
  label : Option String
  command : Option (List String)
  pid : Option (Option Nat)
  entry : Option LogEntry
  message : Option String
  status : Option Status
  exitCode : Option (Option Int)
  signal : Option (Option String)
  error : Option (Option String)
  artifacts : Option (List Artifact)
  stage : Option String
  detail : Option (Option Json)
  fileName : Option String
  size : Option Nat
  path : Option (Option String)

namespace Draft

def empty : Draft :=
  ⟨none, none, none, none, none, none, none, none, none, none, none, none, none, none, none⟩

def fields : EventKind → List (Json.Member Draft)
  | .queued =>
    [ Json.field "label" Json.string label fun d x => { d with label := some x },
      Json.field "command" (Json.list Json.string) command
        fun d x => { d with command := some x } ]
  | .started =>
    [ Json.field "pid" (Json.optional (Json.unsigned 32)) pid fun d x => { d with pid := some x } ]
  | .log => [ Json.field "entry" LogEntry.reader entry fun d x => { d with entry := some x } ]
  | .error => [ Json.field "message" Json.string message fun d x => { d with message := some x } ]
  | .finished =>
    [ Json.field "status" Status.reader status fun d x => { d with status := some x },
      Json.field "exitCode" (Json.optional (Json.signed 32)) exitCode
        fun d x => { d with exitCode := some x },
      Json.field "signal" (Json.optional Json.string) signal
        fun d x => { d with signal := some x },
      Json.field "error" (Json.optional Json.string) error fun d x => { d with error := some x } ]
  | .artifactReady =>
    [ Json.field "artifacts" (Json.list Artifact.reader) artifacts
        fun d x => { d with artifacts := some x } ]
  | .stage =>
    [ Json.field "stage" Json.string stage fun d x => { d with stage := some x },
      Json.fieldOrDefault "detail" (Json.optional Json.json) detail
        fun d x => { d with detail := some x } ]
  | .fileAccepted =>
    [ Json.field "fileName" Json.string fileName fun d x => { d with fileName := some x },
      Json.field "size" (Json.unsigned 64) size fun d x => { d with size := some x },
      Json.field "path" (Json.optional Json.string) path fun d x => { d with path := some x } ]

def finish (k : EventKind) (d : Draft) : Option Payload :=
  match k with
  | .queued => do some (.queued (← d.label) (← d.command))
  | .started => some (.started (d.pid.getD none))
  | .log => d.entry.map .log
  | .error => d.message.map .error
  | .finished => do
    some (.finished (← d.status) (d.exitCode.getD none) (d.signal.getD none) (d.error.getD none))
  | .artifactReady => d.artifacts.map .artifactReady
  | .stage => do some (.stage (← d.stage) (d.detail.getD none))
  | .fileAccepted => do some (.fileAccepted (← d.fileName) (← d.size) (d.path.getD none))

end Draft

/-- The kind that a tag names. -/
def kindOfName? : Json.Node → Option EventKind
  | .text (some s) => EventKind.ofTag? s
  | _ => none

/-- The kind that a tag names or numbers. -/
def kindOfTag? : Json.Node → Option EventKind
  | .number n =>
    match n.value? with
    | some (.int i) => if 0 ≤ i then EventKind.all[i.toNat]? else none
    | _ => none
  | n => kindOfName? n

/-- Reads a payload out of the entries of an object; the tag must stand there exactly once. -/
def fromEntries (kind? : Json.Node → Option EventKind) (entries : List (String × Json.Node)) :
    Except Json.Fault Payload :=
  match entries.filter (·.1 = "type") with
  | [(_, tag)] =>
    match kind? tag with
    | some k =>
      Json.fromOthers (Draft.fields k) .empty (Draft.finish k) (entries.filter (·.1 ≠ "type"))
    | none => .error .mismatched
  | _ => .error .mismatched

/-- Reads a payload out of the items of an array, of which the first is the tag. -/
def fromItems : Json.Items → Except Json.Fault Payload
  | .cons tag rest =>
    match kindOfName? tag with
    | some k => Json.fromOtherItems (Draft.fields k) .empty (Draft.finish k) rest
    | none => .error .mismatched
  | _ => .error .mismatched

def reader : Json.Reader Payload
  | c, .array items => do
    let _ ← Json.readItems (← c.inside).room items
    fromItems items
  | c, n =>
    Json.flattened ([] : List (Json.Member Unit)) () (fromEntries kindOfName?)
      (fun _ p => some p) c n

end Payload

namespace Event

structure Draft where
  jobId : Option String
  timestamp : Option Timestamp

def reader : Json.Reader Event :=
  Json.flattened
    [ Json.field "jobId" Json.string Draft.jobId fun d x => { d with jobId := some x },
      Json.field "timestamp" Timestamp.reader Draft.timestamp
        fun d x => { d with timestamp := some x } ]
    ⟨none, none⟩ (Payload.fromEntries Payload.kindOfTag?)
    fun d p => do some ⟨← d.jobId, ← d.timestamp, p⟩

end Event

end JobConsole
