import JobConsole.Text.Token

/-! # Artifacts

A downloadable output of a finished job. Its id joins the kind and the file name, with every
character that is no token character replaced by an underscore, so it is safe as a path segment.
-/

namespace JobConsole

inductive ArtifactKind where
  | refined
  | archive
  | profile
  | contract
  deriving DecidableEq, Repr

namespace ArtifactKind

def all : List ArtifactKind := [refined, archive, profile, contract]

def name : ArtifactKind → String
  | refined => "refined"
  | archive => "archive"
  | profile => "profile"
  | contract => "contract"

def ofName? (s : String) : Option ArtifactKind := all.find? (·.name = s)

theorem ofName?_name (k : ArtifactKind) : ofName? k.name = some k := by
  cases k <;> decide

end ArtifactKind

structure Artifact where
  id : String
  name : String
  kind : ArtifactKind
  size : Nat
  url : String
  deriving DecidableEq, Repr

namespace Artifact

def idOf (kind : ArtifactKind) (fileName : String) : String :=
  kind.name ++ "-" ++ Text.toToken fileName

def urlOf (jobId artifactId : String) : String :=
  "/api/v1/jobs/" ++ jobId ++ "/artifacts/" ++ artifactId

def build (jobId : String) (kind : ArtifactKind) (fileName : String) (size : Nat) : Artifact :=
  let id := idOf kind fileName
  ⟨id, fileName, kind, size, urlOf jobId id⟩

/-- The same file under another id. -/
def rename (a : Artifact) (jobId id : String) : Artifact :=
  { a with id := id, url := urlOf jobId id }

end Artifact

end JobConsole
