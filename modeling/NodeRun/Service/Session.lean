import NodeRun.Service.Schedule

namespace NodeRun

structure Session where
  schedule : Schedule
  feeds : Table Feed
  launched : Table Nat

structure Collected where
  items : List (Except Error Event)
  ended : Bool

namespace Polled

def item? : Polled → Option (Except Error Event)
  | event e => some (.ok e)
  | failure e => some (.error e)
  | _ => none

end Polled

namespace Session

def start (g : Engine) (models : List LanguageModel) : Session :=
  ⟨⟨.start g models, []⟩, ∅, ∅⟩

def service (s : Session) : Service := s.schedule.service

def settle (g : Engine) (s : Session) : Session := { s with schedule := s.schedule.settle g }

def act (s : Session) (f : Service → Service) : Session :=
  { s with schedule := s.schedule.after (f s.service) }

def release (s : Session) : Feed → Session
  | .listed _ => s
  | .execution id => s.act (·.drop id)

def keep (s : Session) (name : String) (f : Feed) : Session :=
  let s' := { s with feeds := s.feeds.insert name f }
  match s.feeds.get? name with
  | some previous => s'.release previous
  | none => s'

def handle (s : Session) (e : Command) : Feed × Session :=
  let (f, service) := s.service.handle e
  (f, { s with schedule := s.schedule.after service })

def launch (s : Session) (r : ExecuteRequest) (cancelled : Bool) : Nat × Session :=
  let (id, service) := s.service.launch r cancelled
  (id, { s with schedule := s.schedule.after service })

def nextOf (g : Engine) (wait : Nat) (s : Session) : Feed → Polled × Feed × Session
  | .listed [] => (.ended, .listed [], s)
  | .listed (e :: rest) => (.event e, .listed rest, s)
  | .execution id =>
    let (shown, schedule) :=
      s.schedule.await g id (s.service.site.now + wait) s.schedule.roundLimit
    (shown, .execution id, { s with schedule := schedule })

def itemsUntil (g : Engine) (id limit : Nat) : Nat → Schedule → Collected × Schedule
  | 0, s => (⟨[], false⟩, s)
  | n + 1, s =>
    let (shown, s) := s.await g id limit s.roundLimit
    match shown.item? with
    | some i =>
      let (c, s) := itemsUntil g id limit n s
      ({ c with items := i :: c.items }, s)
    | none => (⟨[], shown = .ended⟩, s)

/-- No feed has more items. -/
def itemLimit : Nat := 8

def collectFrom (g : Engine) (wait : Nat) (s : Session) : Feed → Collected × Feed × Session
  | .listed es => (⟨es.map .ok, true⟩, .listed [], s)
  | .execution id =>
    let (c, schedule) := itemsUntil g id (s.service.site.now + wait) itemLimit s.schedule
    (c, .execution id, { s with schedule := schedule })

def collectEvent (g : Engine) (e : Command) (wait : Nat) (s : Session) : Collected × Session :=
  let (f, s) := s.handle e
  let (c, f, s) := s.collectFrom g wait f
  (c, s.release f)

def collectExecution (g : Engine) (r : ExecuteRequest) (wait : Nat) (s : Session) :
    Collected × Session :=
  let (id, s) := s.launch r false
  let (c, f, s) := s.collectFrom g wait (.execution id)
  (c, s.release f)

def startEvent (s : Session) (name : String) (e : Command) : Session :=
  let (f, s) := s.handle e
  s.keep name f

def startExecution (s : Session) (name : String) (r : ExecuteRequest) (cancelled : Bool) :
    Session :=
  let (id, s) := s.launch r cancelled
  { s with launched := s.launched.insert name id }.keep name (.execution id)

def next (g : Engine) (name : String) (wait : Nat) (s : Session) : Option Polled × Session :=
  match s.feeds.get? name with
  | none => (none, s)
  | some f =>
    let (shown, f, s) := s.nextOf g wait f
    (some shown, { s with feeds := s.feeds.insert name f })

def collect (g : Engine) (name : String) (wait : Nat) (s : Session) :
    Option Collected × Session :=
  match s.feeds.get? name with
  | none => (none, s)
  | some f =>
    let (c, f, s) := s.collectFrom g wait f
    (some c, { s with feeds := s.feeds.insert name f })

def drop (name : String) (s : Session) : Bool × Session :=
  match s.feeds.get? name with
  | none => (false, s)
  | some f => (true, { s with feeds := s.feeds.erase name }.release f)

def cancel (name : String) (s : Session) : Bool × Session :=
  match s.launched.get? name with
  | none => (false, s)
  | some id => (true, s.act (·.cancel id))

def advance (g : Engine) (ms : Nat) (s : Session) : Session :=
  { s with schedule := s.schedule.advance g ms }

def finish (g : Engine) (s : Session) : Session :=
  (s.feeds.values.foldl release { s with feeds := ∅ }).settle g

end Session

end NodeRun
