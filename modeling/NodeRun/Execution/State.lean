import NodeRun.Json.Decode
import NodeRun.Json.Encode

namespace NodeRun

inductive ExecutionStatus where
  | idle
  | waiting
  | running
  | success
  | error
  deriving DecidableEq, Repr

namespace ExecutionStatus

def name : ExecutionStatus → String
  | idle => "idle"
  | waiting => "waiting"
  | running => "running"
  | success => "success"
  | error => "error"

def all : List ExecutionStatus := [idle, waiting, running, success, error]

def ofName? (s : String) : Option ExecutionStatus := all.find? (fun x => x.name = s)

theorem ofName?_name (x : ExecutionStatus) : ofName? x.name = some x := by cases x <;> decide

theorem name_of_ofName? {s : String} {x : ExecutionStatus} (h : ofName? s = some x) :
    x.name = s := by
  simpa using List.find?_some h

def decode : Decoder ExecutionStatus := Decode.variant (all.map name) ofName?

def toJson (x : ExecutionStatus) : Json := .str x.name

def isTerminal : ExecutionStatus → Bool
  | success => true
  | error => true
  | _ => false

end ExecutionStatus

structure Timestamps where
  startedAt : Option Int64
  finishedAt : Option Int64
  deriving DecidableEq, Repr

namespace Timestamps

def decode : Decoder Timestamps :=
  Decode.record "struct Timestamps"
    ((Fields.optional "started_at" Decode.int64).map Timestamps.mk
      |>.and (.optional "finished_at" Decode.int64))

def toJson (t : Timestamps) : Json :=
  Json.record
    [("started_at", t.startedAt.map (fun n => .int n.toInt)),
     ("finished_at", t.finishedAt.map (fun n => .int n.toInt))]

end Timestamps

structure ExecutionState where
  status : ExecutionStatus
  traceId : Option String
  inputs : Option (Table Json)
  outputs : Option (Table Json)
  cost : Option Real64
  error : Option String
  timestamps : Option Timestamps
  deriving DecidableEq, Repr

namespace ExecutionState

def decode : Decoder ExecutionState :=
  Decode.record "struct ExecutionState"
    ((Fields.required "status" ExecutionStatus.decode).map ExecutionState.mk
      |>.and (.optional "trace_id" Decode.string)
      |>.and (.optional "inputs" (Decode.table Decode.any))
      |>.and (.optional "outputs" (Decode.table Decode.any))
      |>.and (.optional "cost" Decode.real)
      |>.and (.optional "error" Decode.string)
      |>.and (.optional "timestamps" Timestamps.decode))

def toJson (s : ExecutionState) : Json :=
  Json.record
    [("status", some s.status.toJson),
     ("trace_id", s.traceId.map .str),
     ("inputs", s.inputs.map Json.ofTable),
     ("outputs", s.outputs.map Json.ofTable),
     ("cost", s.cost.map Json.ofReal),
     ("error", s.error.map .str),
     ("timestamps", s.timestamps.map Timestamps.toJson)]

def idle : ExecutionState := ⟨.idle, none, none, none, none, none, none⟩

def running (traceId : String) (inputs : Table Json) (now : Int64) : ExecutionState :=
  { idle with
    status := .running
    traceId := some traceId
    inputs := some inputs
    timestamps := some ⟨some now, none⟩ }

def success (traceId : String) (outputs : Table Json) (cost : Option Real64) (now : Int64) :
    ExecutionState :=
  { idle with
    status := .success
    traceId := some traceId
    outputs := some outputs
    cost := cost
    timestamps := some ⟨none, some now⟩ }

end ExecutionState

structure WorkflowState where
  status : ExecutionStatus
  traceId : Option String
  currentNode : Option String
  result : Option (Table Json)
  error : Option String
  timestamps : Option Timestamps
  deriving DecidableEq, Repr

namespace WorkflowState

def decode : Decoder WorkflowState :=
  Decode.record "struct WorkflowExecutionState"
    ((Fields.required "status" ExecutionStatus.decode).map WorkflowState.mk
      |>.and (.optional "trace_id" Decode.string)
      |>.and (.optional "current_component_id" Decode.string)
      |>.and (.optional "result" (Decode.table Decode.any))
      |>.and (.optional "error" Decode.string)
      |>.and (.optional "timestamps" Timestamps.decode))

def toJson (s : WorkflowState) : Json :=
  Json.record
    [("status", some s.status.toJson),
     ("trace_id", s.traceId.map .str),
     ("current_component_id", s.currentNode.map .str),
     ("result", s.result.map Json.ofTable),
     ("error", s.error.map .str),
     ("timestamps", s.timestamps.map Timestamps.toJson)]

end WorkflowState

end NodeRun
