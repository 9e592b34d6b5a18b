import JobConsole.Event
import JobConsole.Json.Reader

/-! # JSON form of jobs

Absent values are written as null and never left out. The log of a job stands inline in it.
-/

namespace JobConsole

def Timestamp.toJson (t : Timestamp) : Json := .text t.toText

def Timestamp.reader : Json.Reader Timestamp := Json.parsed Timestamp.ofText?

def Stream.reader : Json.Reader Stream := Json.name Stream.ofName?

def Status.reader : Json.Reader Status := Json.name Status.ofName?

def ArtifactKind.reader : Json.Reader ArtifactKind := Json.name ArtifactKind.ofName?

namespace LogEntry

def toJson (e : LogEntry) : Json :=
  .object [("stream", .text e.stream.name), ("message", .text e.message),
    ("timestamp", e.timestamp.toJson)]

structure Draft where
  stream : Option Stream
  message : Option String
  timestamp : Option Timestamp

def Draft.finish (d : Draft) : Option LogEntry := do
  some ⟨← d.stream, ← d.message, ← d.timestamp⟩

def reader : Json.Reader LogEntry :=
  Json.record
    [ Json.field "stream" Stream.reader Draft.stream fun d x => { d with stream := some x },
      Json.field "message" Json.string Draft.message fun d x => { d with message := some x },
      Json.field "timestamp" Timestamp.reader Draft.timestamp
        fun d x => { d with timestamp := some x } ]
    ⟨none, none, none⟩ Draft.finish

end LogEntry

def Log.members (l : Log) : List (String × Json) :=
  [("logs", .array (l.entries.map LogEntry.toJson)), ("logsTruncated", .bool l.truncated)]

def Log.toJson (l : Log) : Json := .object l.members

def envJson (env : Dict String) : Json :=
  .object (env.entries.map fun e => (e.1, .text e.2))

def Job.toJson (j : Job) : Json :=
  .object <|
    [ ("id", .text j.id), ("label", .text j.label), ("command", .texts j.command),
      ("cwd", .text j.cwd), ("env", envJson j.env), ("status", .text j.status.name),
      ("awaitingSlot", .bool j.awaitingSlot), ("createdAt", j.createdAt.toJson),
      ("startedAt", .orNull Timestamp.toJson j.startedAt),
      ("completedAt", .orNull Timestamp.toJson j.completedAt),
      ("exitCode", .orNull .int j.exitCode), ("signal", .orNull .text j.signal),
      ("error", .orNull .text j.error), ("pid", .orNull .nat j.pid) ] ++
    j.log.members ++ [("metadata", .ofDict j.metadata)]

namespace Artifact

def toJson (a : Artifact) : Json :=
  .object [("id", .text a.id), ("name", .text a.name), ("kind", .text a.kind.name),
    ("size", .nat a.size), ("url", .text a.url)]

structure Draft where
  id : Option String
  name : Option String
  kind : Option ArtifactKind
  size : Option Nat
  url : Option String

def Draft.finish (d : Draft) : Option Artifact := do
  some ⟨← d.id, ← d.name, ← d.kind, ← d.size, ← d.url⟩

def reader : Json.Reader Artifact :=
  Json.record
    [ Json.field "id" Json.string Draft.id fun d x => { d with id := some x },
      Json.field "name" Json.string Draft.name fun d x => { d with name := some x },
      Json.field "kind" ArtifactKind.reader Draft.kind fun d x => { d with kind := some x },
      Json.field "size" (Json.unsigned 64) Draft.size fun d x => { d with size := some x },
      Json.field "url" Json.string Draft.url fun d x => { d with url := some x } ]
    ⟨none, none, none, none, none⟩ Draft.finish

end Artifact

end JobConsole
