import NodeRun.Execution.State

namespace NodeRun

inductive Event where
  | alive
  | componentState (node : String) (state : ExecutionState)
  | workflowState (state : WorkflowState)
  | debug (message : String)
  | error (message : String)
  | done
  deriving DecidableEq, Repr

namespace Event

inductive Tag where
  | alive
  | componentState
  | workflowState
  | debug
  | error
  | done
  deriving DecidableEq, Repr

namespace Tag

def name : Tag → String
  | alive => "is_alive_response"
  | componentState => "component_state_change"
  | workflowState => "execution_state_change"
  | debug => "debug"
  | error => "error"
  | done => "done"

def all : List Tag := [alive, componentState, workflowState, debug, error, done]

def ofName? (s : String) : Option Tag := all.find? (fun x => x.name = s)

theorem ofName?_name (x : Tag) : ofName? x.name = some x := by cases x <;> decide

end Tag

def tag : Event → Tag
  | .alive => .alive
  | .componentState _ _ => .componentState
  | .workflowState _ => .workflowState
  | .debug _ => .debug
  | .error _ => .error
  | .done => .done

def typeName (e : Event) : String := e.tag.name

def state? : Event → Option ExecutionState
  | .componentState _ s => some s
  | _ => none

def componentPayload : Decoder Event :=
  Decode.record "struct ComponentStateChangePayload"
    ((Fields.required "component_id" Decode.string).map .componentState
      |>.and (.required "execution_state" ExecutionState.decode))

def workflowPayload : Decoder Event :=
  Decode.record "struct ExecutionStateChangePayload"
    ((Fields.required "execution_state" WorkflowState.decode).map .workflowState)

def messagePayload : Decoder String :=
  Decode.record "struct MessagePayload" (.required "message" Decode.string)

def content : Tag → Decoder Event
  | .alive => fun o d => (Decode.noContent o d).map (fun _ => .alive)
  | .componentState =>
    Decode.record "struct variant StudioServerEvent::ComponentStateChange"
      (.required "payload" componentPayload)
  | .workflowState =>
    Decode.record "struct variant StudioServerEvent::ExecutionStateChange"
      (.required "payload" workflowPayload)
  | .debug =>
    Decode.record "struct variant StudioServerEvent::Debug"
      ((Fields.required "payload" messagePayload).map .debug)
  | .error =>
    Decode.record "struct variant StudioServerEvent::Error"
      ((Fields.required "payload" messagePayload).map .error)
  | .done => fun o d => (Decode.noContent o d).map (fun _ => .done)

def decode : Decoder Event := fun o d => do
  let (tag, rest) ← Decode.tagged "internally tagged enum StudioServerEvent"
    (Tag.all.map Tag.name) Tag.ofName? o d
  content tag .buffered rest

def payload? : Event → Option Json
  | .alive => none
  | .componentState node s =>
    some (Json.record [("component_id", some (.str node)), ("execution_state", some s.toJson)])
  | .workflowState s => some (Json.record [("execution_state", some s.toJson)])
  | .debug m => some (Json.record [("message", some (.str m))])
  | .error m => some (Json.record [("message", some (.str m))])
  | .done => none

def toJson (e : Event) : Json :=
  Json.record [("type", some (.str e.typeName)), ("payload", e.payload?)]

def text (e : Event) : List Char := e.toJson.text

def dataLabel : List Char := "data: ".toList

def frame (e : Event) : List Char := dataLabel ++ e.text ++ ['\n', '\n']

end Event

end NodeRun
