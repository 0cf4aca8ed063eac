import NodeRun.Service.Basic

/-!
A schedule for the parts of all executions on one thread. Jobs that are ready run in the order in
which they became ready, each as far as it gets; time passes only when none is ready, and then
straight to the end of the next call.
-/

namespace NodeRun

inductive Job where
  | task (id : Nat)
  | work (id : Nat)
  deriving DecidableEq, Repr

namespace Execution

def taskReady (cancelled : Bool) (x : Execution) : Bool :=
  match x.task with
  | .absent => false
  | .ended _ => false
  | .invoking _ =>
    stopped cancelled x || (match x.work with | .ended _ => true | _ => false)
  | _ => true

def workReady (now : Nat) (x : Execution) : Bool :=
  match x.work with
  | .ready _ _ _ => true
  | .calling _ _ wake => decide (wake ≤ now)
  | _ => false

def wake? (x : Execution) : Option Nat :=
  match x.work with
  | .calling _ _ wake => some wake
  | _ => none

/-- No task has more steps from its beginning to its end. -/
def stepLimit : Nat := 10

end Execution

namespace Service

def jobs (s : Service) : List Job :=
  (List.range s.served.length).flatMap (fun id => [.task id, .work id])

def isReady (s : Service) : Job → Bool
  | .task id => (s.served[id]?).any (fun x => x.execution.taskReady x.cancelled)
  | .work id => (s.served[id]?).any (fun x => x.execution.workReady s.site.now)

def step (g : Engine) (s : Service) : Job → Service
  | .task id => s.stepTask g id
  | .work id => s.stepWork g id

def runJob (g : Engine) (j : Job) : Nat → Service → Service
  | 0, s => s
  | n + 1, s => if s.isReady j then runJob g j n (s.step g j) else s

def nextWake? (s : Service) : Option Nat := (s.served.filterMap (·.execution.wake?)).min?

end Service

structure Schedule where
  service : Service
  queue : List Job

namespace Schedule

def awaken (s : Schedule) : Schedule :=
  { s with
    queue := s.queue ++
      s.service.jobs.filter (fun j => s.service.isReady j && !s.queue.contains j) }

def after (s : Schedule) (service : Service) : Schedule := awaken { s with service := service }

def runNext (g : Engine) (s : Schedule) : Schedule :=
  match s.queue with
  | [] => s
  | j :: rest => ({ s with queue := rest }).after (s.service.runJob g j Execution.stepLimit)

def runJobs (g : Engine) : Nat → Schedule → Schedule
  | 0, s => s
  | n + 1, s => if s.queue.isEmpty then s else runJobs g n (s.runNext g)

/-- No execution makes more jobs than these ready, one after the other. -/
def jobLimit (s : Schedule) : Nat := s.queue.length + 8 * s.service.served.length

def settle (g : Engine) (s : Schedule) : Schedule := s.runJobs g s.jobLimit

/-- Time passes until the next call ends, if that is before `limit`; otherwise until then. -/
def pass (g : Engine) (limit : Nat) (s : Schedule) : Schedule :=
  let next := match s.service.nextWake? with
    | some w => if w < limit then w else limit
    | none => limit
  (s.after (s.service.waitUntil next)).settle g

def passUntil (g : Engine) (limit : Nat) : Nat → Schedule → Schedule
  | 0, s => s
  | n + 1, s => if limit ≤ s.service.site.now then s else passUntil g limit n (s.pass g limit)

def advance (g : Engine) (ms : Nat) (s : Schedule) : Schedule :=
  s.passUntil g (s.service.site.now + ms) (s.service.served.length + 1)

def await (g : Engine) (id limit : Nat) : Nat → Schedule → Polled × Schedule
  | 0, s => (.pending, s)
  | n + 1, s =>
    let (shown, service) := s.service.poll id
    let s := s.after service
    if shown ≠ .pending || limit ≤ service.site.now then (shown, s)
    else await g id limit n (if s.queue.isEmpty then s.pass g limit else s.settle g)

/-- No wait takes more rounds. -/
def roundLimit (s : Schedule) : Nat := 2 * s.service.served.length + 4

end Schedule

end NodeRun
