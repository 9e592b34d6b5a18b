import JobConsole.Wire.Job

/-! # JSON form of requests

What clients send: job options, submissions, requests for the commands of the refinery, metadata
merges and stages. Optional members may be missing or null; defaulted ones may be missing only.
-/

namespace JobConsole

namespace JobOptions

structure Draft where
  cwd : Option (Option String)
  env : Option (Dict String)
  label : Option (Option String)
  id : Option (Option String)
  metadata : Option Metadata

namespace Draft

def empty : Draft := ⟨.none, .none, .none, .none, .none⟩

def fields : List (Json.Member Draft) :=
  [ Json.field "cwd" (Json.optional Json.string) cwd fun d x => { d with cwd := some x },
    Json.fieldOrDefault "env" (Json.dictOf Json.string) env fun d x => { d with env := some x },
    Json.field "label" (Json.optional Json.string) label fun d x => { d with label := some x },
    Json.field "id" (Json.optional Json.string) id fun d x => { d with id := some x },
    Json.fieldOrDefault "metadata" Json.dict metadata
      fun d x => { d with metadata := some x } ]

def finish (d : Draft) : JobOptions :=
  ⟨d.cwd.getD .none, d.env.getD .empty, d.label.getD .none, d.id.getD .none,
    d.metadata.getD .empty⟩

end Draft

def reader : Json.Reader JobOptions :=
  Json.record Draft.fields .empty fun d => some d.finish

end JobOptions

structure SubmitRequest where
  command : List String
  options : JobOptions

namespace SubmitRequest

structure Draft where
  command : Option (List String)

def reader : Json.Reader SubmitRequest :=
  Json.flattened
    [ Json.field "command" (Json.list Json.string) Draft.command
        fun d x => { d with command := some x } ]
    ⟨none⟩
    (Json.fromOthers JobOptions.Draft.fields .empty fun d => some d.finish)
    fun d o => d.command.map (⟨·, o⟩)

end SubmitRequest

structure ImportRequest where
  inputPath : String
  format : Option String
  profile : Bool
  label : Option String

namespace ImportRequest

structure Draft where
  inputPath : Option String
  format : Option (Option String)
  profile : Option Bool
  label : Option (Option String)

def reader : Json.Reader ImportRequest :=
  Json.record
    [ Json.field "inputPath" Json.string Draft.inputPath
        fun d x => { d with inputPath := some x },
      Json.field "format" (Json.optional Json.string) Draft.format
        fun d x => { d with format := some x },
      Json.fieldOrDefault "profile" Json.boolean Draft.profile
        fun d x => { d with profile := some x },
      Json.field "label" (Json.optional Json.string) Draft.label
        fun d x => { d with label := some x } ]
    ⟨none, none, none, none⟩
    fun d => d.inputPath.map (⟨·, d.format.getD none, d.profile.getD true, d.label.getD none⟩)

end ImportRequest

structure RefineRequest where
  inputPath : String
  rulesPath : Option String
  label : Option String

namespace RefineRequest

structure Draft where
  inputPath : Option String
  rulesPath : Option (Option String)
  label : Option (Option String)

def reader : Json.Reader RefineRequest :=
  Json.record
    [ Json.field "inputPath" Json.string Draft.inputPath
        fun d x => { d with inputPath := some x },
      Json.field "rulesPath" (Json.optional Json.string) Draft.rulesPath
        fun d x => { d with rulesPath := some x },
      Json.field "label" (Json.optional Json.string) Draft.label
        fun d x => { d with label := some x } ]
    ⟨none, none, none⟩
    fun d => d.inputPath.map (⟨·, d.rulesPath.getD none, d.label.getD none⟩)

end RefineRequest

structure ContractRequest where
  inputPath : String
  contractName : Option String
  label : Option String

namespace ContractRequest

structure Draft where
  inputPath : Option String
  contractName : Option (Option String)
  label : Option (Option String)

def reader : Json.Reader ContractRequest :=
  Json.record
    [ Json.field "inputPath" Json.string Draft.inputPath
        fun d x => { d with inputPath := some x },
      Json.field "contractName" (Json.optional Json.string) Draft.contractName
        fun d x => { d with contractName := some x },
      Json.field "label" (Json.optional Json.string) Draft.label
        fun d x => { d with label := some x } ]
    ⟨none, none, none⟩
    fun d => d.inputPath.map (⟨·, d.contractName.getD none, d.label.getD none⟩)

end ContractRequest

structure MergeRequest where
  metadata : Metadata
  announce : Bool

namespace MergeRequest

structure Draft where
  metadata : Option Metadata
  announce : Option Bool

def reader : Json.Reader MergeRequest :=
  Json.record
    [ Json.field "metadata" Json.dict Draft.metadata fun d x => { d with metadata := some x },
      Json.fieldOrDefault "announce" Json.boolean Draft.announce
        fun d x => { d with announce := some x } ]
    ⟨none, none⟩
    fun d => d.metadata.map (⟨·, d.announce.getD false⟩)

end MergeRequest

structure StageRequest where
  stage : String
  detail : Option Json

namespace StageRequest

structure Draft where
  stage : Option String
  detail : Option (Option Json)

def reader : Json.Reader StageRequest :=
  Json.record
    [ Json.field "stage" Json.string Draft.stage fun d x => { d with stage := some x },
      Json.field "detail" (Json.optional Json.json) Draft.detail
        fun d x => { d with detail := some x } ]
    ⟨none, none⟩
    fun d => d.stage.map (⟨·, d.detail.getD none⟩)

end StageRequest

end JobConsole
