import JobConsole.Artifact.Resolution
import JobConsole.Registry.Basic
import JobConsole.Wire.Job

/-! # Artifacts of registered jobs

Only a finished job has artifacts. An announcement records the list in the metadata of the job and
publishes it in one step.
-/

namespace JobConsole.Registry

/-- Records a list of artifacts and publishes it. -/
def announce (r : Registry) (id : String) (artifacts : List Artifact) (now : Timestamp) :
    Except Error Registry :=
  match r.get? id with
  | none => .error (.notFound .job id)
  | some j =>
    let listed := Json.array (artifacts.map Artifact.toJson)
    let part := Dict.empty.insert Metadata.artifactsKey listed
    let j' := { j with metadata := j.metadata.merge part }
    .ok ((r.setJob j').publish ⟨id, now, .artifactReady artifacts⟩)

/-- The artifacts that a finished job has left; any other job has none. -/
def findArtifacts (r : Registry) (fs : FileSystem) (id : String) :
    Except Error (List Artifact) :=
  match r.get? id with
  | none => .error (.notFound .job id)
  | some j =>
    .ok (if j.status.isTerminal then (Resolved.resolve fs j).map (·.artifact) else [])

/-- Finds the artifacts of a job and announces them if asked to, unless there are none. -/
def resolveArtifacts (r : Registry) (fs : FileSystem) (id : String) (announced : Bool)
    (now : Timestamp) : Except Error (List Artifact × Registry) :=
  match r.findArtifacts fs id with
  | .error e => .error e
  | .ok found =>
    if announced && !found.isEmpty then
      match r.announce id found now with
      | .error e => .error e
      | .ok r' => .ok (found, r')
    else .ok (found, r)

def locateArtifact (r : Registry) (fs : FileSystem) (id artifactId : String) :
    Except Error Resolved :=
  match r.get? id with
  | none => .error (.notFound .job id)
  | some j =>
    let found := if j.status.isTerminal then Resolved.locate fs j artifactId else none
    match found with
    | none => .error (.notFound .artifact artifactId)
    | some a => .ok a

end JobConsole.Registry
