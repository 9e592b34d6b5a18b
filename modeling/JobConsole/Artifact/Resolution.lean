import JobConsole.Artifact
import JobConsole.Files.System
import JobConsole.Job.Basic

/-! # Artifact resolution

The metadata of a job says where its outputs land. Resolution looks at each place and lists the
regular files that are there: the primary output, the archive by file name, the profile, the
contract. Relative places are taken from the working directory of the job. A path that repeats an
earlier one component by component is left out, and an id that is taken gets the suffix `-2`, `-3`
and so on.
-/

namespace JobConsole

/-- An artifact with the path of the file behind it. -/
structure Resolved where
  artifact : Artifact
  path : String
  deriving DecidableEq

namespace Resolved

/-- Where a metadata key says that an output lands. -/
def placeOf (j : Job) (key : String) : Option String :=
  (j.metadata.text? key).map (Path.join j.cwd)

/-- The artifact of a path, if it leads to a regular file. -/
def ofFile? (fs : FileSystem) (jobId : String) (kind : ArtifactKind) (p : String) :
    Option Resolved :=
  (fs.fileSize? p).map fun n => ⟨.build jobId kind (Path.fileName p) n, p⟩

def atPlace (fs : FileSystem) (j : Job) (kind : ArtifactKind) (key : String) : List Resolved :=
  ((placeOf j key).bind (ofFile? fs j.id kind)).toList

/-- The regular files in a directory, by name. -/
def inDirectory (fs : FileSystem) (jobId dir : String) : List Resolved :=
  match fs.readDirectory dir with
  | .error _ => []
  | .ok names =>
    (names.filterMap fun s => ofFile? fs jobId .archive (Path.join dir s)).mergeSort
      fun a b => decide (a.artifact.name ≤ b.artifact.name)

def inArchive (fs : FileSystem) (j : Job) : List Resolved :=
  match placeOf j Metadata.archiveDirKey with
  | none => []
  | some dir => inDirectory fs j.id dir

def candidates (fs : FileSystem) (j : Job) : List Resolved :=
  atPlace fs j .refined Metadata.outputPathKey ++ inArchive fs j ++
    atPlace fs j .profile Metadata.profilePathKey ++
    atPlace fs j .contract Metadata.contractPathKey

/-- Keeps the first of those with equal paths, given the paths seen before. -/
def firstByPath (seen : List (List Path.Component)) : List Resolved → List Resolved
  | [] => []
  | r :: rs =>
    let p := Path.components r.path
    if seen.contains p then firstByPath seen rs else r :: firstByPath (p :: seen) rs

def suffixed (base : String) (n : Nat) : String := base ++ "-" ++ toString n

/-- The first of `base`, `base-2`, `base-3` and so on that is not taken. The number has no bound, though
it is counted in 32 bits: that many files would have to share one id. -/
def freeId (taken : List String) (base : String) : String :=
  let numbers := (List.range (taken.length + 1)).map (· + 2)
  ((base :: numbers.map (suffixed base)).find? fun s => !taken.contains s).getD base

/-- Gives each entry an id that no earlier one has. -/
def separateIds (jobId : String) (taken : List String) : List Resolved → List Resolved
  | [] => []
  | r :: rs =>
    let id := freeId taken r.artifact.id
    let r' := if id = r.artifact.id then r else { r with artifact := r.artifact.rename jobId id }
    r' :: separateIds jobId (id :: taken) rs

def resolve (fs : FileSystem) (j : Job) : List Resolved :=
  separateIds j.id [] (firstByPath [] (candidates fs j))

def locate (fs : FileSystem) (j : Job) (id : String) : Option Resolved :=
  (resolve fs j).find? (·.artifact.id = id)

end Resolved

end JobConsole
