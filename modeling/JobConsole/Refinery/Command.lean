import JobConsole.Config.Basic
import JobConsole.Files.System
import JobConsole.Wire.Request

/-! # Refinery commands

Requests to import, refine or describe a data file become invocations of the refinery program. Each
invocation gets a fresh job id and an output directory named after it, and its metadata records the
same output paths that the command line carries.
-/

namespace JobConsole

structure Prepared where
  command : List String
  options : JobOptions

namespace Refinery

/-- The program to call and the directory below which each job gets its own. -/
structure Builder where
  program : String
  outputRoot : String

/-- A relative output root is taken from the working directory. -/
def Builder.new (c : JobsConfig) : Builder :=
  ⟨c.cliProgram, Path.join c.workingDir c.outputRoot⟩

def refinedFile : String := "refined.parquet"
def archiveDir : String := "archive"
def profileFile : String := "profile.json"
def contractFile : String := "contract.yaml"

inductive Request where
  | imports (r : ImportRequest)
  | refine (r : RefineRequest)
  | contract (r : ContractRequest)

namespace Request

def inputPath : Request → String
  | imports r => r.inputPath
  | refine r => r.inputPath
  | contract r => r.inputPath

def label : Request → Option String
  | imports r => r.label
  | refine r => r.label
  | contract r => r.label

def kind : Request → String
  | imports _ => "import"
  | refine _ => "refine"
  | contract _ => "contract"

/-- The word that selects the command of the program. -/
def verb : Request → String
  | imports _ => "import"
  | refine _ => "refine"
  | contract _ => "emit-contract"

def title : Request → String
  | imports _ => "Import"
  | refine _ => "Refine"
  | contract _ => "Contract"

end Request

/-- A word of the command line: a flag with its value, which may be a recorded output path. -/
inductive Argument where
  | output (flag key path : String)
  | option (flag value : String)

namespace Argument

def words : Argument → List String
  | output flag _ path => [flag, path]
  | option flag value => [flag, value]

def record (m : Metadata) : Argument → Metadata
  | output _ key path => m.insert key (.text path)
  | option .. => m

end Argument

/-- An option whose value is given and not blank; the value is trimmed. -/
def optionOf (flag : String) (value : Option String) : List Argument :=
  match value with
  | none => []
  | some v => if Text.isAllBlank v then [] else [.option flag (Text.trim v)]

/-- The arguments after the input, for outputs in the directory `dir`. -/
def arguments (dir : String) : Request → List Argument
  | .imports r =>
    [ .output "--output" Metadata.outputPathKey (Path.join dir refinedFile),
      .output "--archive-dir" Metadata.archiveDirKey (Path.join dir archiveDir) ] ++
    optionOf "--format" r.format ++
    if r.profile then
      [.output "--profile" Metadata.profilePathKey (Path.join dir profileFile)]
    else []
  | .refine r =>
    .output "--output" Metadata.outputPathKey (Path.join dir refinedFile) ::
      optionOf "--rules" r.rulesPath
  | .contract r =>
    .output "--output" Metadata.contractPathKey (Path.join dir contractFile) ::
      optionOf "--name" r.contractName

/-- The command for a request whose outputs go to `dir` under the job id `id`. -/
def prepare (b : Builder) (r : Request) (input id dir : String) : Prepared :=
  let args := arguments dir r
  let kind := Dict.empty.insert Metadata.kindKey (Json.text r.kind)
  { command :=
      [b.program, r.verb, input] ++ args.flatMap Argument.words ++ ["--job-id", id]
    options :=
      { JobOptions.none with
        id := some id
        label := some (r.label.getD (r.title ++ " " ++ input))
        metadata := args.foldl Argument.record kind } }

/-- Checks the input, makes the output directory for the fresh id, and prepares the command. -/
def Builder.build (b : Builder) (fs : FileSystem) (id : String) (r : Request) :
    FileSystem × Except Error Prepared :=
  let input := Text.trim r.inputPath
  if input = "" then (fs, .error (.invalid .missingInput))
  else
    let dir := Path.join b.outputRoot id
    match fs.makeDirectories dir with
    | (fs', some e) => (fs', .error (.noOutputDirectory dir e))
    | (fs', none) => (fs', .ok (prepare b r input id dir))

end Refinery

end JobConsole
