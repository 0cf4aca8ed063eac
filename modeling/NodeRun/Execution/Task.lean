import NodeRun.Execution.Basic

namespace NodeRun.Execution

/-- Whether the task has reason to stop: the token was cancelled, or nobody awaits it any more. -/
def stopped (cancelled : Bool) (x : Execution) : Bool := cancelled || x.abandoned

def endTask (reply : Reply Prediction) (t : Turn) : Turn :=
  { t with gate := t.gate.release }.toTask (.ended reply)

def unlessPanic (panic? : Option String) (next : Turn → Turn) (t : Turn) : Turn :=
  match panic? with
  | some m => endTask (.panic m) t
  | none => next t

def openPanic? (g : Engine) (r : ExecuteRequest) : Option String :=
  if r.workflow.enableTracing then g.tracer.panic? (.opening (traceOptions g.config r)) else none

def enterScope (g : Engine) (id : Nat) (t : Turn) : Turn :=
  match Guard.openScope t.site g.tracer (some id) t.self.request.workflow.enableTracing
      (traceOptions g.config t.self.request) with
  | (.ok guard, site) => { t with site := site }.toTask (.compiling guard)
  | (.error _, site) =>
    ({ t with site := site }.note id .scopeRefused).toTask (.compiling none)

def openGuard (g : Engine) (id : Nat) (t : Turn) : Turn :=
  unlessPanic (openPanic? g t.self.request) (enterScope g id) t

def buildModule (g : Engine) (id : Nat) (guard : Guard) (t : Turn) : Turn :=
  match target t.self.request with
  | .error e => t.toTask (.reporting guard (.error e))
  | .ok node =>
    let (reply, es) := g.compiler.compile node t.self.request.workflow
    let t := { t with site := t.site.emit (some id) es }
    match reply with
    | .ok m => t.toTask (.parsing guard m)
    | .error e => t.toTask (.reporting guard (.error e))
    | .panic m => endTask (.panic m) t

def compileNode (g : Engine) (id : Nat) (guard : Guard) (t : Turn) : Turn :=
  unlessPanic (guard.panic? t.site g.tracer .tracking) (buildModule g id guard) t

def declaredInputs (r : ExecuteRequest) : List Field :=
  match target r with
  | .ok node => node.inputs
  | .error _ => []

def parseInputs (guard : Guard) (m : Module) (t : Turn) : Turn :=
  match Field.autoparse (declaredInputs t.self.request) t.self.request.inputs with
  | .ok inputs => t.toTask (.launching guard m inputs)
  | .error e => t.toTask (.reporting guard (.error e))

def launch (cancelled : Bool) (guard : Guard) (m : Module) (inputs : Table Json) (t : Turn) :
    Turn :=
  if stopped cancelled t.self then t.toTask (.reporting guard (.error .cancelled))
  else (t.toWork (.ready guard m inputs)).toTask (.invoking guard)

def awaitWork (id : Nat) (cancelled : Bool) (guard : Guard) (t : Turn) : Turn :=
  if stopped cancelled t.self then
    (t.toWork .aborted).toTask (.reporting guard (.error .cancelled))
  else
    match t.self.work with
    | .ended (.ok p) => t.toTask (.reporting guard (.ok p))
    | .ended (.error e) => t.toTask (.reporting guard (.error e))
    | .ended (.panic m) =>
      t.toTask (.reporting guard (.error (.invocation (.invocationPanicked id m))))
    | _ => t

def reportEffects (g : Engine) (e : Error) (r : ExecuteRequest) : List Effect :=
  .note .failed ::
    (match g.reporter with
      | .log => [.note .failureReported]
      | _ => [.failureReported e ⟨r.traceId, r.workflow.id⟩])

def reportPanic? (g : Engine) : Option String :=
  match g.reporter with
  | .panicking m => some m
  | _ => none

def report (g : Engine) (id : Nat) (cancelled : Bool) (guard : Guard)
    (result : Except Error Prediction) (t : Turn) : Turn :=
  match result with
  | .ok _ => t.toTask (.flushing guard result)
  | .error e =>
    if e.isCancelled || stopped cancelled t.self then t.toTask (.flushing guard result)
    else
      unlessPanic (reportPanic? g) (·.toTask (.flushing guard result))
        { t with site := t.site.emit (some id) (reportEffects g e t.self.request) }

def flushScope (g : Engine) (id : Nat) (guard : Guard) (result : Except Error Prediction)
    (t : Turn) : Turn :=
  let (_, site) := guard.finish t.site g.tracer (some id)
  { t with site := site }.toTask (.settling result)

def flush (g : Engine) (id : Nat) (guard : Guard) (result : Except Error Prediction) (t : Turn) :
    Turn :=
  unlessPanic (guard.panic? t.site g.tracer .flushing) (flushScope g id guard result) t

def settle (id : Nat) (cancelled : Bool) (result : Except Error Prediction) (t : Turn) : Turn :=
  if stopped cancelled t.self then endTask (.error .cancelled) (t.note id .stopped)
  else endTask (.ofExcept result) t

def stepTask (g : Engine) (id : Nat) (cancelled : Bool) (t : Turn) : Turn :=
  match t.self.task with
  | .absent => t
  | .opening => openGuard g id t
  | .compiling guard => compileNode g id guard t
  | .parsing guard m => parseInputs guard m t
  | .launching guard m inputs => launch cancelled guard m inputs t
  | .invoking guard => awaitWork id cancelled guard t
  | .reporting guard result => report g id cancelled guard result t
  | .flushing guard result => flush g id guard result t
  | .settling result => settle id cancelled result t
  | .ended _ => t

end NodeRun.Execution
