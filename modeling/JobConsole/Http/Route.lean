import JobConsole.Files.Path
import JobConsole.Http.Message

/-! # Routes

The resources of the console by path. A path is matched piece by piece as it is written, before any
escape in it is read; a fixed name wins over a parameter in the same place. A parameter is never
empty, so a slash at the end makes another path.
-/

namespace JobConsole.Http

inductive Route where
  | health
  | jobs
  | importing
  | refining
  | contract
  | events
  | job (id : String)
  | metadata (id : String)
  | stage (id : String)
  | stream (id : String)
  | artifacts (id : String)
  | artifact (id artifactId : String)
  deriving DecidableEq, Repr

namespace Route

/-- The route below the path of all jobs. -/
def ofJobPieces : List String → Option Route
  | [] => some jobs
  | ["import"] => some importing
  | ["refine"] => some refining
  | ["contract"] => some contract
  | ["events"] => some events
  | [id] => if id = "" then none else some (job id)
  | [id, "metadata"] => if id = "" then none else some (metadata id)
  | [id, "stage"] => if id = "" then none else some (stage id)
  | [id, "stream"] => if id = "" then none else some (stream id)
  | [id, "artifacts"] => if id = "" then none else some (artifacts id)
  | [id, "artifacts", a] => if id = "" ∨ a = "" then none else some (artifact id a)
  | _ => none

/-- The path of a target: what stands before the query and the fragment. -/
def pathOf (target : String) : String :=
  String.ofList (target.toList.takeWhile fun c => c ≠ '?' && c ≠ '#')

def ofTarget (target : String) : Option Route :=
  match Path.pieces (pathOf target) with
  | ["", "health"] => some health
  | "" :: "api" :: "v1" :: "jobs" :: rest => ofJobPieces rest
  | _ => none

/-- The methods of a route, in the order in which they are listed. -/
def methods : Route → List Method
  | health | events | job _ | stream _ | artifacts _ | artifact .. => [.get, .head]
  | jobs => [.get, .head, .post]
  | importing | refining | contract | stage _ => [.post]
  | metadata _ => [.patch]

def allow (r : Route) : String := String.intercalate "," (r.methods.map Method.name)

end Route

end JobConsole.Http
