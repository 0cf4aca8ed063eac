import NodeRun.Execution.Basic

namespace NodeRun.Execution

def beginWork (id : Nat) (guard : Guard) (m : Module) (inputs : Table Json) (t : Turn) : Turn :=
  let (begun, models, es) :=
    Invocation.begin (context t.self.request guard) t.site.moment t.site.models m inputs
  let site := ({ t.site with models := models }.tick).emit (some id) (.forwardStarted inputs :: es)
  let t := { t with site := site }
  match begun with
  | .finished result => t.toWork (.ended (.ofExcept result))
  | .pending call => t.toWork (.calling guard call (site.now + call.delay))

def keepSpan (g : Engine) (id : Nat) (guard : Guard) (span : Option Span)
    (reply : Reply Prediction) (s : Site) : Reply Prediction × Site :=
  match guard, span with
  | some place, some x =>
    match g.tracer.panic? (.recording x) with
    | some m => (.panic m, s)
    | none => (reply, s.record g.tracer (some id) place x)
  | _, _ => (reply, s)

def finishWork (g : Engine) (id : Nat) (guard : Guard) (call : Pending) (t : Turn) : Turn :=
  let (reply, span, models) :=
    call.finish (context t.self.request guard) t.site.moment t.site.models
  let (reply, site) := keepSpan g id guard span reply { t.site with models := models }.tick
  { t with site := site }.toWork (.ended reply)

def stepWork (g : Engine) (id : Nat) (t : Turn) : Turn :=
  match t.self.work with
  | .ready guard m inputs => beginWork id guard m inputs t
  | .calling guard call wake => if wake ≤ t.site.now then finishWork g id guard call t else t
  | _ => t

end NodeRun.Execution
