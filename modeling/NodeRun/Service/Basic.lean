import NodeRun.Execution.Poll
import NodeRun.Execution.Task
import NodeRun.Execution.Work
import NodeRun.Service.Running

namespace NodeRun

/-- How far the feed of an execution has come. A feed of the service holds a registration until
it is closed; a direct feed shows the items of the engine as they are. -/
inductive Front where
  | direct
  | serving (generation : UInt64)
  | reported (generation : UInt64)
  | finished (generation : UInt64)
  | closed
  deriving DecidableEq, Repr

namespace Front

def generation? : Front → Option UInt64
  | serving n => some n
  | reported n => some n
  | finished n => some n
  | direct => none
  | closed => none

end Front

structure Served where
  execution : Execution
  front : Front
  cancelled : Bool

namespace Served

def isLive (x : Served) : Bool :=
  match x.front with
  | .direct => x.execution.stage ≠ .closed
  | .closed => false
  | _ => true

def traceId (x : Served) : String := x.execution.request.traceId

end Served

inductive Feed where
  | listed (events : List Event)
  | execution (id : Nat)
  deriving DecidableEq, Repr

structure Service where
  site : Site
  gate : Gate
  running : Running
  served : List Served

namespace Service

def startNotices (c : EngineConfig) : List Notice :=
  (if c.maxConcurrent = 0 then [.limitRaised] else []) ++ [.engineReady]

def start (g : Engine) (models : List LanguageModel) : Service :=
  { site := (Site.ofModels models).emit none ((startNotices g.config).map .note)
    gate := .ofLimit g.config.permits
    running := .fresh
    served := [] }

def note (s : Service) (n : Notice) : Service := { s with site := s.site.emit none [.note n] }

def turn (s : Service) (x : Served) : Execution.Turn := ⟨x.execution, s.site, s.gate⟩

def put (s : Service) (id : Nat) (x : Served) (t : Execution.Turn) : Service :=
  { s with
    site := t.site
    gate := t.gate
    served := s.served.set id { x with execution := t.self } }

def cancel (s : Service) (id : Nat) : Service :=
  match s.served[id]? with
  | some x => { s with served := s.served.set id { x with cancelled := true } }
  | none => s

def register (s : Service) (r : ExecuteRequest) : Service :=
  let previous := s.running.get? r.traceId
  let s := { s with running := s.running.register r.traceId r.nodeId s.served.length }
  match previous with
  | some x => (s.note .superseding).cancel x.execution
  | none => s

def add (s : Service) (r : ExecuteRequest) (front : Front) (cancelled : Bool) : Service :=
  { s with served := s.served ++ [⟨.ofRequest r, front, cancelled⟩] }

def launch (s : Service) (r : ExecuteRequest) (cancelled : Bool) : Nat × Service :=
  (s.served.length, s.add r .direct cancelled)

def execute (s : Service) (r : ExecuteRequest) : Nat × Service :=
  (s.served.length, (s.register r).add r (.serving s.running.next) false)

def stop (s : Service) (r : StopRequest) : Service :=
  match s.running.stopping r with
  | .nothing => s.note .nothingToStop
  | .elsewhere => s.note .stopElsewhere
  | .execution id => (s.note .stopping).cancel id

def handle (s : Service) (e : Command) : Feed × Service :=
  let s := s.note .eventReceived
  match e with
  | .isAlive => (.listed [.alive, .done], s)
  | .execute r =>
    let (id, s) := s.execute r
    (.execution id, s)
  | .stop r => (.listed [.done], s.stop r)

def closeFeed (s : Service) (id : Nat) (x : Served) : Service :=
  let t := Execution.close id (s.turn x)
  match x.front.generation? with
  | some n =>
    { s.put id { x with front := .closed } t with running := s.running.release x.traceId n }
  | none => s.put id x t

def serve (s : Service) (id : Nat) (generation : UInt64) (x : Served) (shown : Polled) :
    Polled × Service :=
  match shown with
  | .failure e =>
    if e.isCancelled then (.ended, s.closeFeed id x)
    else
      (.event (.error e.message), s.put id { x with front := .reported generation } (s.turn x))
  | .ended => (.event .done, s.put id { x with front := .finished generation } (s.turn x))
  | .event _ => (shown, s)
  | .pending => (.pending, s)

def poll (s : Service) (id : Nat) : Polled × Service :=
  match s.served[id]? with
  | none => (.ended, s)
  | some x =>
    match x.front with
    | .closed => (.ended, s)
    | .finished _ => (.ended, s.closeFeed id x)
    | .reported n => (.event .done, s.put id { x with front := .finished n } (s.turn x))
    | .direct =>
      let (shown, t) := Execution.poll id x.cancelled (s.turn x)
      (shown, s.put id x t)
    | .serving n =>
      let (shown, t) := Execution.poll id x.cancelled (s.turn x)
      (s.put id x t).serve id n { x with execution := t.self } shown

def drop (s : Service) (id : Nat) : Service :=
  match s.served[id]? with
  | some x => if x.isLive then s.closeFeed id x else s
  | none => s

def stepTask (g : Engine) (s : Service) (id : Nat) : Service :=
  match s.served[id]? with
  | some x => s.put id x (Execution.stepTask g id x.cancelled (s.turn x))
  | none => s

def stepWork (g : Engine) (s : Service) (id : Nat) : Service :=
  match s.served[id]? with
  | some x => s.put id x (Execution.stepWork g id (s.turn x))
  | none => s

def waitUntil (s : Service) (now : Nat) : Service :=
  { s with site := { s.site with now := max s.site.now now } }

def shownConfig (c : EngineConfig) : String :=
  "EngineConfig \x7b platform: " ++ Text.quoted c.platform ++ ", environment: " ++
    Text.quoted c.environment ++ ", max_concurrent_executions: " ++
    toString c.maxConcurrent.toNat ++ " \x7d"

def shown (g : Engine) (s : Service) : String :=
  "StudioService \x7b engine: Engine \x7b config: " ++ shownConfig g.config ++ ", compiler: " ++
    g.compiler.shown ++ ", available_permits: " ++ toString s.gate.free ++ ", .. \x7d, running: " ++
    toString s.running.size ++ " \x7d"

end Service

end NodeRun
