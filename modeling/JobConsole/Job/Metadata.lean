import JobConsole.Json.Value

/-! # Job metadata

Metadata is an open object attached to a job. Merging overwrites the keys of the partial object and
leaves every other key as it was; nested objects are not merged. A few keys say where a job leaves
its outputs.
-/

namespace JobConsole

abbrev Metadata := Dict Json

namespace Metadata

def kindKey : String := "kind"
def outputPathKey : String := "outputPath"
def archiveDirKey : String := "archiveDir"
def profilePathKey : String := "profilePath"
def contractPathKey : String := "contractPath"
def artifactsKey : String := "artifacts"

def merge (target part : Metadata) : Metadata :=
  part.entries.foldl (fun d e => d.insert e.1 e.2) target

/-- Merges as well, and lists the keys that were written, in the order of writing. -/
def mergeWithKeys (target part : Metadata) : List String × Metadata :=
  part.entries.foldl (fun x e => (x.1 ++ [e.1], x.2.insert e.1 e.2)) ([], target)

/-- The text under a key, unless it is empty. -/
def text? (m : Metadata) (key : String) : Option String :=
  match m.get? key with
  | some (.text s) => if s = "" then none else some s
  | _ => none

end Metadata

end JobConsole
