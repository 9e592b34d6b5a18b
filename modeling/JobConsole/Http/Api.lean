import JobConsole.Console
import JobConsole.Http.Failure
import JobConsole.Http.MediaType
import JobConsole.Http.Percent
import JobConsole.Http.Route

/-! # The web interface

What the console does for each route. A request that cannot be understood is turned down before
anything happens: first an escape in the path, then the media type, then the JSON text, then its
content.
-/

namespace JobConsole.Http

/-- What the server adds to a request when it arrives. -/
structure Arrival where
  now : Timestamp
  /-- An id that no job has. -/
  jobId : String
  requestId : String

/-- The route with the escapes in its parameters read. -/
def Route.decode? : Route → Option Route
  | .job id => do some (.job (← Percent.decode? id))
  | .metadata id => do some (.metadata (← Percent.decode? id))
  | .stage id => do some (.stage (← Percent.decode? id))
  | .stream id => do some (.stream (← Percent.decode? id))
  | .artifacts id => do some (.artifacts (← Percent.decode? id))
  | .artifact id a => do some (.artifact (← Percent.decode? id) (← Percent.decode? a))
  | r => some r

namespace Api

abbrev Answer := Response × Console

def refuse (c : Console) (e : Error) : Answer := (e.failure.response, c)

/-! ## Bodies -/

/-- The content of a JSON body, or the status of the refusal. -/
def decodeBody {α : Type} (reader : Json.Reader α) (r : Request) : Except Nat α :=
  if (r.headers.lookup Response.contentTypeName).any MediaType.isJson then
    match Text.Utf8.decode? r.body with
    | none => .error 400
    | some s =>
      match Json.decode reader s with
      | .ok x => .ok x
      | .error .malformed => .error 400
      | .error .mismatched => .error 422
  else .error 415

def withBody {α : Type} (c : Console) (reader : Json.Reader α) (r : Request)
    (k : α → Answer) : Answer :=
  match decodeBody reader r with
  | .ok x => k x
  | .error status => (.notice status, c)

/-! ## Jobs -/

def jobData (status : Nat) (j : Job) : Response := .data status j.toJson

def submit (c : Console) (a : Arrival) (command : List String) (options : JobOptions) : Answer :=
  match c.registry.submit command options a.jobId a.now with
  | .error e => refuse c e
  | .ok (j, r) => (jobData 201 j, { c with registry := r })

/-- Prepares a command of the refinery and submits it. -/
def submitRefinery (c : Console) (a : Arrival) (r : Refinery.Request) : Answer :=
  match c.builder.build c.files a.jobId r with
  | (fs, .error e) => refuse { c with files := fs } e
  | (fs, .ok p) => submit { c with files := fs } a p.command p.options

def listJobs (c : Console) : Answer :=
  (.data 200 (.array (c.registry.list.map Job.toJson)), c)

def getJob (c : Console) (id : String) : Answer :=
  match c.registry.get? id with
  | none => refuse c (.notFound .job id)
  | some j => (jobData 200 j, c)

def mergeMetadata (c : Console) (a : Arrival) (id : String) (m : MergeRequest) : Answer :=
  match c.registry.mergeMetadata id m.metadata with
  | .error e => refuse c e
  | .ok (j, r) =>
    if m.announce then
      match r.resolveArtifacts c.files id true a.now with
      | .error e => refuse { c with registry := r } e
      | .ok (found, r') =>
        let j' := if found.isEmpty then j else (r'.get? id).getD j
        (jobData 200 j', { c with registry := r' })
    else (jobData 200 j, { c with registry := r })

def publishStage (c : Console) (a : Arrival) (id : String) (s : StageRequest) : Answer :=
  let stage := Text.trim s.stage
  if stage = "" then refuse c (.invalid .emptyStage)
  else
    match c.registry.publishStage id stage s.detail a.now with
    | .error e => refuse c e
    | .ok r => (.empty 204, { c with registry := r })

/-! ## Artifacts -/

def listArtifacts (c : Console) (a : Arrival) (id : String) : Answer :=
  match c.registry.resolveArtifacts c.files id true a.now with
  | .error e => refuse c e
  | .ok (found, r) => (.data 200 (.array (found.map Artifact.toJson)), { c with registry := r })

/-- The part of a file name behind its last dot, or all of it, in lower case. -/
def extension (name : String) : String :=
  (String.ofList (name.toList.reverse.takeWhile (· ≠ '.')).reverse).toLower

def mediaTypeOf (name : String) : String :=
  match extension name with
  | "json" => "application/json"
  | "yaml" | "yml" => "application/yaml"
  | "csv" => "text/csv"
  | "txt" | "log" => Response.plainText
  | _ => "application/octet-stream"

/-- The proposal to save a file under its name, without the quotes in it. -/
def disposition (name : String) : String :=
  "attachment; filename=\"" ++ String.ofList (name.toList.filter (· ≠ '"')) ++ "\""

/-- The answer that carries a file. A name that cannot stand in a header cannot be sent. -/
def fileResponse (a : Artifact) (octets : List UInt8) : Response :=
  if isHeaderText (disposition a.name) then
    { status := 200
      headers :=
        [ (Response.contentTypeName, mediaTypeOf a.name), ("content-length", toString a.size),
          ("content-disposition", disposition a.name) ]
      content := .file octets }
  else .notice 500

def download (c : Console) (id artifactId : String) : Answer :=
  match c.registry.locateArtifact c.files id artifactId with
  | .error e => refuse c e
  | .ok found =>
    match c.files.readFile found.path with
    | none => ((Failure.boundary FileError.missing.message).response, c)
    | some octets => (fileResponse found.artifact octets, c)

/-! ## Streams -/

def streamHeaders : Headers :=
  [(Response.contentTypeName, "text/event-stream"), ("cache-control", "no-cache")]

/-- Opens a stream of the events of a job, or of all jobs. -/
def openStream (c : Console) (id : Option String) : Answer :=
  match c.openChannel id with
  | .ok (ch, c') => (⟨200, streamHeaders, .stream ch⟩, c')
  | .error (.refused e) => refuse c e
  | .error .periodTooLong => (.notice 500, c)

/-! ## Dispatch -/

def version : String := "0.1.0"

def health (c : Console) : Answer :=
  (.json 200
    (.object [("status", .text "ok"), ("version", .text version),
      ("jobs", .nat c.registry.jobs.length),
      ("activitySubscribers", .nat c.registry.bus.wildcardCount)]), c)

/-- The answer to a request whose method its route has, and whose escapes have been read. -/
def handle (c : Console) (a : Arrival) (r : Request) : Route → Answer
  | .health => health c
  | .jobs =>
    if r.method = .post then
      withBody c SubmitRequest.reader r fun s => submit c a s.command s.options
    else listJobs c
  | .importing => withBody c ImportRequest.reader r fun s => submitRefinery c a (.imports s)
  | .refining => withBody c RefineRequest.reader r fun s => submitRefinery c a (.refine s)
  | .contract => withBody c ContractRequest.reader r fun s => submitRefinery c a (.contract s)
  | .events => openStream c none
  | .job id => getJob c id
  | .metadata id => withBody c MergeRequest.reader r (mergeMetadata c a id)
  | .stage id => withBody c StageRequest.reader r (publishStage c a id)
  | .stream id => openStream c (some id)
  | .artifacts id => listArtifacts c a id
  | .artifact id artifactId => download c id artifactId

/-- Leaves out the content, as the answer to a HEAD request does. -/
def withoutContent (x : Answer) : Answer :=
  match x.1.content with
  | .stream ch => ({ x.1 with content := .empty }, (x.2.closeChannel ch).2)
  | _ => ({ x.1 with content := .empty }, x.2)

/-- The answer to a request by its route. -/
def route (c : Console) (a : Arrival) (r : Request) : Answer :=
  match Route.ofTarget r.target with
  | none => (.empty 404, c)
  | some p =>
    if p.methods.contains r.method then
      match p.decode? with
      | none => (.notice 400, c)
      | some p =>
        let answer := handle c a r p
        if r.method = .head then withoutContent answer else answer
    else ((Response.empty 405).addHeaders [("allow", p.allow)], c)

end Api

end JobConsole.Http
