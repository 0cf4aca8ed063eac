import NodeRun.Command
import NodeRun.Engine.Basic
import NodeRun.Event
import NodeRun.Execution.Gate
import NodeRun.Execution.Site

/-!
One execution of a node. Three parts of it advance on their own: the stream, which is polled by a
client; the task, which opens the scope, compiles, waits for the module, reports, flushes and
settles; and the work, which is the run of the module. A step of a part reads the cancellation
token at most once, so that a token may change between any two steps.
-/

namespace NodeRun

/-- How far the stream has come. A stream that announced or started the execution holds its permit,
and so does one that failed before it could hand the permit to the task. -/
inductive Stage where
  | idle
  | waiting
  | announced
  | started
  | awaiting
  | failed (holding : Bool)
  | succeeded
  | closed
  deriving DecidableEq, Repr

inductive Task where
  | absent
  | opening
  | compiling (guard : Guard)
  | parsing (guard : Guard) (module : Module)
  | launching (guard : Guard) (module : Module) (inputs : Table Json)
  | invoking (guard : Guard)
  | reporting (guard : Guard) (result : Except Error Prediction)
  | flushing (guard : Guard) (result : Except Error Prediction)
  | settling (result : Except Error Prediction)
  | ended (reply : Reply Prediction)

inductive Work where
  | absent
  | ready (guard : Guard) (module : Module) (inputs : Table Json)
  | calling (guard : Guard) (call : Pending) (wake : Nat)
  | ended (reply : Reply Prediction)
  | aborted

structure Execution where
  request : ExecuteRequest
  stage : Stage
  abandoned : Bool
  task : Task
  work : Work

inductive Polled where
  | event (e : Event)
  | failure (e : Error)
  | pending
  | ended
  deriving DecidableEq, Repr

namespace Execution

def ofRequest (r : ExecuteRequest) : Execution := ⟨r, .idle, false, .absent, .absent⟩

def rawInputs (r : ExecuteRequest) : Table Json := r.inputs.map .str

def traceOptions (c : EngineConfig) (r : ExecuteRequest) : TraceOptions :=
  TraceOptions.new r.traceId r.workflow.apiKey
    |>.withMetadata "platform" c.platform
    |>.withMetadata "environment" c.environment
    |>.withSkipRootSpan true

def target (r : ExecuteRequest) : Except Error Node :=
  match r.workflow.validate with
  | .error e => .error e
  | .ok () =>
    match r.workflow.node? r.nodeId with
    | some n => .ok n
    | none => .error (.nodeNotFound r.nodeId)

def context (r : ExecuteRequest) (g : Guard) : InvocationContext :=
  ⟨r.traceId, .fresh, g.isSome⟩

def announcement : Event := .debug "executing component"

def startEvent (r : ExecuteRequest) (now : Int64) : Event :=
  .componentState r.nodeId (.running r.traceId (rawInputs r) now)

def endEvent (r : ExecuteRequest) (p : Prediction) (now : Int64) : Event :=
  .componentState r.nodeId (.success r.traceId p.outputs p.cost now)

structure Turn where
  self : Execution
  site : Site
  gate : Gate

namespace Turn

def note (t : Turn) (id : Nat) (n : Notice) : Turn :=
  { t with site := t.site.emit (some id) [.note n] }

def toStage (t : Turn) (s : Stage) : Turn := { t with self := { t.self with stage := s } }

def toTask (t : Turn) (k : Task) : Turn := { t with self := { t.self with task := k } }

def toWork (t : Turn) (k : Work) : Turn := { t with self := { t.self with work := k } }

end Turn

end Execution

end NodeRun
