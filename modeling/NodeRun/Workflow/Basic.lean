import NodeRun.Workflow.Node

namespace NodeRun

structure Workflow where
  id : String
  name : String
  apiKey : String
  nodes : List Node
  defaultModel : ModelChoice
  enableTracing : Bool
  deriving DecidableEq, Repr

namespace Workflow

def new (id : String) (model : ModelChoice) : Workflow := ⟨id, "", "", [], model, true⟩

def decode : Decoder Workflow :=
  Decode.record "struct Workflow"
    ((Fields.required "workflow_id" Decode.string).map Workflow.mk
      |>.and (.withDefault "" "name" Decode.string)
      |>.and (.withDefault "" "api_key" Decode.string)
      |>.and (.required "nodes" (Decode.list Node.decode))
      |>.and (.required "default_llm" ModelChoice.decode)
      |>.and (.withDefault true "enable_tracing" Decode.bool))

def toJson (w : Workflow) : Json :=
  Json.record
    [("workflow_id", some (.str w.id)),
     ("name", some (.str w.name)),
     ("api_key", some (.str w.apiKey)),
     ("nodes", some (Json.list Node.toJson w.nodes)),
     ("default_llm", some w.defaultModel.toJson),
     ("enable_tracing", some (.bool w.enableTracing))]

def node? (w : Workflow) (id : String) : Option Node := w.nodes.find? (fun n => n.id = id)

def duplicate? (w : Workflow) : Option String := repeated? (w.nodes.map Node.id)

def validate (w : Workflow) : Except Error Unit :=
  match w.duplicate? with
  | some id => .error (.configuration (.duplicateNode id w.id))
  | none => .ok ()

end Workflow

end NodeRun
