import NodeRun.Execution.Basic

namespace NodeRun.Execution

def announce (id : Nat) (t : Turn) : Polled × Turn :=
  (.event announcement, (t.note id .executing).toStage .announced)

def pollIdle (id : Nat) (cancelled : Bool) (t : Turn) : Polled × Turn :=
  if cancelled then (.failure .cancelled, t.toStage (.failed false))
  else
    match t.gate.take? with
    | some gate => announce id { t with gate := gate }
    | none => (.pending, { t with gate := t.gate.enqueue id }.toStage .waiting)

def pollWaiting (id : Nat) (cancelled : Bool) (t : Turn) : Polled × Turn :=
  if cancelled then
    (.failure .cancelled, { t with gate := t.gate.leave id }.toStage (.failed false))
  else if t.gate.isGranted id then announce id { t with gate := t.gate.claim id }
  else (.pending, t)

def pollAnnounced (cancelled : Bool) (t : Turn) : Polled × Turn :=
  match target t.self.request with
  | .error e => (.failure e, t.toStage (.failed true))
  | .ok _ =>
    if cancelled then (.failure .cancelled, t.toStage (.failed true))
    else (.event (startEvent t.self.request t.site.time), t.toStage .started)

def pollAwaiting (id : Nat) (t : Turn) : Polled × Turn :=
  match t.self.task with
  | .ended (.ok p) =>
    (.event (endEvent t.self.request p t.site.time), (t.note id .executed).toStage .succeeded)
  | .ended (.error e) => (.failure e, t.toStage (.failed false))
  | .ended (.panic m) => (.failure (.invocation (.executionPanicked id m)), t.toStage (.failed false))
  | _ => (.pending, t)

def close (id : Nat) (t : Turn) : Turn :=
  match t.self.stage with
  | .waiting => { t with gate := t.gate.leave id }.toStage .closed
  | .announced => { t with gate := t.gate.release }.toStage .closed
  | .started => { t with gate := t.gate.release }.toStage .closed
  | .failed true => { t with gate := t.gate.release }.toStage .closed
  | .awaiting => { t with self := { t.self with abandoned := true } }.toStage .closed
  | _ => t.toStage .closed

def poll (id : Nat) (cancelled : Bool) (t : Turn) : Polled × Turn :=
  match t.self.stage with
  | .idle => pollIdle id cancelled t
  | .waiting => pollWaiting id cancelled t
  | .announced => pollAnnounced cancelled t
  | .started => pollAwaiting id ((t.toTask .opening).toStage .awaiting)
  | .awaiting => pollAwaiting id t
  | .failed _ => (.ended, close id t)
  | .succeeded => (.ended, close id t)
  | .closed => (.ended, t)

end NodeRun.Execution
