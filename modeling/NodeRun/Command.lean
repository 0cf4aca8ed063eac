import NodeRun.Workflow.Basic

namespace NodeRun

structure ExecuteRequest where
  traceId : String
  workflow : Workflow
  nodeId : String
  inputs : Table String
  deriving DecidableEq, Repr

namespace ExecuteRequest

def decode : Decoder ExecuteRequest :=
  Decode.record "struct ExecuteComponentPayload"
    ((Fields.required "trace_id" Decode.string).map ExecuteRequest.mk
      |>.and (.required "workflow" Workflow.decode)
      |>.and (.required "node_id" Decode.string)
      |>.and (.withDefault ∅ "inputs" (Decode.table Decode.string)))

def toJson (r : ExecuteRequest) : Json :=
  Json.record
    [("trace_id", some (.str r.traceId)),
     ("workflow", some r.workflow.toJson),
     ("node_id", some (.str r.nodeId)),
     ("inputs", some (Json.strs r.inputs))]

end ExecuteRequest

structure StopRequest where
  traceId : String
  nodeId : Option String
  deriving DecidableEq, Repr

namespace StopRequest

def decode : Decoder StopRequest :=
  Decode.record "struct StopExecutionPayload"
    ((Fields.required "trace_id" Decode.string).map StopRequest.mk
      |>.and (.optional "node_id" Decode.string))

def toJson (r : StopRequest) : Json :=
  Json.record [("trace_id", some (.str r.traceId)), ("node_id", r.nodeId.map .str)]

end StopRequest

inductive Command where
  | isAlive
  | execute (request : ExecuteRequest)
  | stop (request : StopRequest)
  deriving DecidableEq, Repr

namespace Command

inductive Tag where
  | isAlive
  | execute
  | stop
  deriving DecidableEq, Repr

namespace Tag

def name : Tag → String
  | isAlive => "is_alive"
  | execute => "execute_component"
  | stop => "stop_execution"

def all : List Tag := [isAlive, execute, stop]

def ofName? (s : String) : Option Tag := all.find? (fun x => x.name = s)

theorem ofName?_name (x : Tag) : ofName? x.name = some x := by cases x <;> decide

end Tag

def tag : Command → Tag
  | .isAlive => .isAlive
  | .execute _ => .execute
  | .stop _ => .stop

def typeName (e : Command) : String := e.tag.name

def traceId? : Command → Option String
  | .isAlive => none
  | .execute r => some r.traceId
  | .stop r => some r.traceId

def noPayload : Decoder Unit := Decode.record "struct IsAlivePayload" (.none ())

def content : Tag → Decoder Command
  | .isAlive =>
    Decode.record "struct variant StudioClientEvent::IsAlive"
      ((Fields.withDefault () "payload" noPayload).map (fun _ => .isAlive))
  | .execute =>
    Decode.record "struct variant StudioClientEvent::ExecuteComponent"
      ((Fields.required "payload" ExecuteRequest.decode).map .execute)
  | .stop =>
    Decode.record "struct variant StudioClientEvent::StopExecution"
      ((Fields.required "payload" StopRequest.decode).map .stop)

def decode : Decoder Command := fun o d => do
  let (tag, rest) ← Decode.tagged "internally tagged enum StudioClientEvent"
    (Tag.all.map Tag.name) Tag.ofName? o d
  content tag .buffered rest

def payload : Command → Json
  | .isAlive => .obj []
  | .execute r => r.toJson
  | .stop r => r.toJson

def toJson (e : Command) : Json :=
  Json.record [("type", some (.str e.typeName)), ("payload", some e.payload)]

end Command

end NodeRun
