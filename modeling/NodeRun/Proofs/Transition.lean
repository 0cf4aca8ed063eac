import NodeRun.Execution.Poll
import NodeRun.Execution.Task
import NodeRun.Execution.Work

namespace NodeRun

namespace Reply

variable {α : Type}

def toExcept (onPanic : String → Error) : Reply α → Except Error α
  | ok x => .ok x
  | error e => .error e
  | panic m => .error (onPanic m)

@[simp] theorem toExcept_ofExcept (onPanic : String → Error) (r : Except Error α) :
    (ofExcept r).toExcept onPanic = r := by cases r <;> rfl

end Reply

namespace Execution

def workPanic (id : Nat) (m : String) : Error := .invocation (.invocationPanicked id m)

def taskPanic (id : Nat) (m : String) : Error := .invocation (.executionPanicked id m)

namespace Turn

variable (t : Turn) (id : Nat) (n : Notice) (s : Stage) (k : Task) (w : Work)

@[simp] theorem note_self : (t.note id n).self = t.self := rfl

@[simp] theorem note_gate : (t.note id n).gate = t.gate := rfl

@[simp] theorem toStage_self : (t.toStage s).self = { t.self with stage := s } := rfl

@[simp] theorem toStage_site : (t.toStage s).site = t.site := rfl

@[simp] theorem toStage_gate : (t.toStage s).gate = t.gate := rfl

@[simp] theorem toTask_self : (t.toTask k).self = { t.self with task := k } := rfl

@[simp] theorem toTask_site : (t.toTask k).site = t.site := rfl

@[simp] theorem toTask_gate : (t.toTask k).gate = t.gate := rfl

@[simp] theorem toWork_self : (t.toWork w).self = { t.self with work := w } := rfl

@[simp] theorem toWork_site : (t.toWork w).site = t.site := rfl

@[simp] theorem toWork_gate : (t.toWork w).gate = t.gate := rfl

end Turn

@[simp] theorem endTask_self (r : Reply Prediction) (t : Turn) :
    (endTask r t).self = { t.self with task := .ended r } := rfl

inductive Polls (id : Nat) (c : Bool) (t : Turn) : Polled → Turn → Prop where
  | refused (h : t.self.stage = .idle) (hc : c = true) :
    Polls id c t (.failure .cancelled) (t.toStage (.failed false))
  | admitted {gate : Gate} (h : t.self.stage = .idle) (hc : c = false)
    (hg : t.gate.take? = some gate) :
    Polls id c t (.event announcement)
      (({ t with gate := gate }.note id .executing).toStage .announced)
  | queued (h : t.self.stage = .idle) (hc : c = false) (hg : t.gate.take? = none) :
    Polls id c t .pending ({ t with gate := t.gate.enqueue id }.toStage .waiting)
  | left (h : t.self.stage = .waiting) (hc : c = true) :
    Polls id c t (.failure .cancelled) ({ t with gate := t.gate.leave id }.toStage (.failed false))
  | granted (h : t.self.stage = .waiting) (hc : c = false) (hg : t.gate.isGranted id = true) :
    Polls id c t (.event announcement)
      (({ t with gate := t.gate.claim id }.note id .executing).toStage .announced)
  | waited (h : t.self.stage = .waiting) (hc : c = false) (hg : t.gate.isGranted id = false) :
    Polls id c t .pending t
  | untargeted {e : Error} (h : t.self.stage = .announced) (ht : target t.self.request = .error e) :
    Polls id c t (.failure e) (t.toStage (.failed true))
  | halted {n : Node} (h : t.self.stage = .announced) (ht : target t.self.request = .ok n)
    (hc : c = true) : Polls id c t (.failure .cancelled) (t.toStage (.failed true))
  | begun {n : Node} (h : t.self.stage = .announced) (ht : target t.self.request = .ok n)
    (hc : c = false) :
    Polls id c t (.event (startEvent t.self.request t.site.time)) (t.toStage .started)
  | spawned (h : t.self.stage = .started) :
    Polls id c t .pending ((t.toTask .opening).toStage .awaiting)
  | succeeded {p : Prediction} (h : t.self.stage = .awaiting) (hk : t.self.task = .ended (.ok p)) :
    Polls id c t (.event (endEvent t.self.request p t.site.time))
      ((t.note id .executed).toStage .succeeded)
  | failed {e : Error} (h : t.self.stage = .awaiting) (hk : t.self.task = .ended (.error e)) :
    Polls id c t (.failure e) (t.toStage (.failed false))
  | panicked {m : String} (h : t.self.stage = .awaiting) (hk : t.self.task = .ended (.panic m)) :
    Polls id c t (.failure (taskPanic id m)) (t.toStage (.failed false))
  | unsettled (h : t.self.stage = .awaiting) (hk : ∀ r, t.self.task ≠ .ended r) :
    Polls id c t .pending t
  | exhausted (h : t.self.stage = .succeeded ∨ ∃ b, t.self.stage = .failed b) :
    Polls id c t .ended (close id t)
  | closed (h : t.self.stage = .closed) : Polls id c t .ended t

theorem polls_poll (id : Nat) (c : Bool) (t : Turn) :
    Polls id c t (poll id c t).1 (poll id c t).2 := by
  cases h : t.self.stage with
  | idle =>
    simp only [poll, h, pollIdle]
    split
    · rename_i hc; exact .refused h hc
    · rename_i hc
      have hf : c = false := by simpa using hc
      split
      · rename_i gate hg; exact .admitted h hf hg
      · rename_i hg; exact .queued h hf hg
  | waiting =>
    simp only [poll, h, pollWaiting]
    split
    · rename_i hc; exact .left h hc
    · rename_i hc
      have hf : c = false := by simpa using hc
      split
      · rename_i hg; exact .granted h hf hg
      · rename_i hg; exact .waited h hf (by simpa using hg)
  | announced =>
    simp only [poll, h, pollAnnounced]
    split
    · rename_i e ht; exact .untargeted h ht
    · rename_i n ht
      split
      · rename_i hc; exact .halted h ht hc
      · rename_i hc; exact .begun h ht (by simpa using hc)
  | started =>
    simp only [poll, h, pollAwaiting]
    exact .spawned h
  | awaiting =>
    simp only [poll, h, pollAwaiting]
    split
    · rename_i p hk; exact .succeeded h hk
    · rename_i e hk; exact .failed h hk
    · rename_i m hk; exact .panicked h hk
    · rename_i h1 h2 h3
      refine .unsettled h ?_
      rintro (p | e | m) hk
      · exact h1 p hk
      · exact h2 e hk
      · exact h3 m hk
  | failed b =>
    simp only [poll, h]
    exact .exhausted (.inr ⟨b, h⟩)
  | succeeded =>
    simp only [poll, h]
    exact .exhausted (.inl h)
  | closed =>
    simp only [poll, h]
    exact .closed h

inductive TaskSteps (g : Engine) (id : Nat) (c : Bool) (t : Turn) : Turn → Prop where
  | absent (h : t.self.task = .absent) : TaskSteps g id c t t
  | ended {r : Reply Prediction} (h : t.self.task = .ended r) : TaskSteps g id c t t
  | openPanicked {m : String} (h : t.self.task = .opening)
    (hp : openPanic? g t.self.request = some m) : TaskSteps g id c t (endTask (.panic m) t)
  | opened {guard : Guard} {site : Site} (h : t.self.task = .opening)
    (hp : openPanic? g t.self.request = none)
    (ho : Guard.openScope t.site g.tracer (some id) t.self.request.workflow.enableTracing
      (traceOptions g.config t.self.request) = (.ok guard, site)) :
    TaskSteps g id c t ({ t with site := site }.toTask (.compiling guard))
  | refused {e : Error} {site : Site} (h : t.self.task = .opening)
    (hp : openPanic? g t.self.request = none)
    (ho : Guard.openScope t.site g.tracer (some id) t.self.request.workflow.enableTracing
      (traceOptions g.config t.self.request) = (.error e, site)) :
    TaskSteps g id c t (({ t with site := site }.note id .scopeRefused).toTask (.compiling none))
  | trackPanicked {guard : Guard} {m : String} (h : t.self.task = .compiling guard)
    (hp : guard.panic? t.site g.tracer .tracking = some m) :
    TaskSteps g id c t (endTask (.panic m) t)
  | untargeted {guard : Guard} {e : Error} (h : t.self.task = .compiling guard)
    (hp : guard.panic? t.site g.tracer .tracking = none) (ht : target t.self.request = .error e) :
    TaskSteps g id c t (t.toTask (.reporting guard (.error e)))
  | built {guard : Guard} {n : Node} {m : Module} {es : List Effect}
    (h : t.self.task = .compiling guard) (hp : guard.panic? t.site g.tracer .tracking = none)
    (ht : target t.self.request = .ok n)
    (hb : g.compiler.compile n t.self.request.workflow = (.ok m, es)) :
    TaskSteps g id c t
      ({ t with site := t.site.emit (some id) es }.toTask (.parsing guard m))
  | unbuilt {guard : Guard} {n : Node} {e : Error} {es : List Effect}
    (h : t.self.task = .compiling guard) (hp : guard.panic? t.site g.tracer .tracking = none)
    (ht : target t.self.request = .ok n)
    (hb : g.compiler.compile n t.self.request.workflow = (.error e, es)) :
    TaskSteps g id c t
      ({ t with site := t.site.emit (some id) es }.toTask (.reporting guard (.error e)))
  | buildPanicked {guard : Guard} {n : Node} {m : String} {es : List Effect}
    (h : t.self.task = .compiling guard) (hp : guard.panic? t.site g.tracer .tracking = none)
    (ht : target t.self.request = .ok n)
    (hb : g.compiler.compile n t.self.request.workflow = (.panic m, es)) :
    TaskSteps g id c t (endTask (.panic m) { t with site := t.site.emit (some id) es })
  | parsed {guard : Guard} {m : Module} {inputs : Table Json} (h : t.self.task = .parsing guard m)
    (hi : Field.autoparse (declaredInputs t.self.request) t.self.request.inputs = .ok inputs) :
    TaskSteps g id c t (t.toTask (.launching guard m inputs))
  | unparsed {guard : Guard} {m : Module} {e : Error} (h : t.self.task = .parsing guard m)
    (hi : Field.autoparse (declaredInputs t.self.request) t.self.request.inputs = .error e) :
    TaskSteps g id c t (t.toTask (.reporting guard (.error e)))
  | launched {guard : Guard} {m : Module} {inputs : Table Json}
    (h : t.self.task = .launching guard m inputs) (hs : stopped c t.self = false) :
    TaskSteps g id c t ((t.toWork (.ready guard m inputs)).toTask (.invoking guard))
  | unlaunched {guard : Guard} {m : Module} {inputs : Table Json}
    (h : t.self.task = .launching guard m inputs) (hs : stopped c t.self = true) :
    TaskSteps g id c t (t.toTask (.reporting guard (.error .cancelled)))
  | replied {guard : Guard} {r : Reply Prediction} (h : t.self.task = .invoking guard)
    (hs : stopped c t.self = false) (hw : t.self.work = .ended r) :
    TaskSteps g id c t (t.toTask (.reporting guard (r.toExcept (workPanic id))))
  | unreplied {guard : Guard} (h : t.self.task = .invoking guard)
    (hs : stopped c t.self = false) (hw : ∀ r, t.self.work ≠ .ended r) : TaskSteps g id c t t
  | aborted {guard : Guard} (h : t.self.task = .invoking guard) (hs : stopped c t.self = true) :
    TaskSteps g id c t ((t.toWork .aborted).toTask (.reporting guard (.error .cancelled)))
  | unreported {guard : Guard} {result : Except Error Prediction}
    (h : t.self.task = .reporting guard result)
    (hr : stopped c t.self = true ∨ ∀ e, result = .error e → e = .cancelled) :
    TaskSteps g id c t (t.toTask (.flushing guard result))
  | reported {guard : Guard} {e : Error} (h : t.self.task = .reporting guard (.error e))
    (he : e ≠ .cancelled) (hs : stopped c t.self = false) (hp : reportPanic? g = none) :
    TaskSteps g id c t
      ({ t with site := t.site.emit (some id) (reportEffects g e t.self.request) }.toTask
        (.flushing guard (.error e)))
  | reportPanicked {guard : Guard} {e : Error} {m : String}
    (h : t.self.task = .reporting guard (.error e)) (he : e ≠ .cancelled)
    (hs : stopped c t.self = false) (hp : reportPanic? g = some m) :
    TaskSteps g id c t (endTask (.panic m)
      { t with site := t.site.emit (some id) (reportEffects g e t.self.request) })
  | flushPanicked {guard : Guard} {result : Except Error Prediction} {m : String}
    (h : t.self.task = .flushing guard result)
    (hp : guard.panic? t.site g.tracer .flushing = some m) :
    TaskSteps g id c t (endTask (.panic m) t)
  | flushed {guard : Guard} {result : Except Error Prediction}
    (h : t.self.task = .flushing guard result)
    (hp : guard.panic? t.site g.tracer .flushing = none) :
    TaskSteps g id c t
      ({ t with site := (guard.finish t.site g.tracer (some id)).2 }.toTask (.settling result))
  | stopped {result : Except Error Prediction} (h : t.self.task = .settling result)
    (hs : stopped c t.self = true) :
    TaskSteps g id c t (endTask (.error .cancelled) (t.note id .stopped))
  | settled {result : Except Error Prediction} (h : t.self.task = .settling result)
    (hs : stopped c t.self = false) : TaskSteps g id c t (endTask (.ofExcept result) t)

theorem openGuard_steps (g : Engine) (id : Nat) (c : Bool) (t : Turn)
    (h : t.self.task = .opening) : TaskSteps g id c t (openGuard g id t) := by
  unfold openGuard unlessPanic
  split
  · rename_i m hp; exact .openPanicked h hp
  · rename_i hp
    unfold enterScope
    split
    · rename_i guard site ho; exact .opened h hp ho
    · rename_i e site ho; exact .refused h hp ho

theorem compileNode_steps (g : Engine) (id : Nat) (c : Bool) (guard : Guard) (t : Turn)
    (h : t.self.task = .compiling guard) : TaskSteps g id c t (compileNode g id guard t) := by
  unfold compileNode unlessPanic
  split
  · rename_i m hp; exact .trackPanicked h hp
  · rename_i hp
    unfold buildModule
    split
    · rename_i e ht; exact .untargeted h hp ht
    · rename_i n ht
      rcases hb : g.compiler.compile n t.self.request.workflow with ⟨reply, es⟩
      cases reply with
      | ok m => exact .built h hp ht hb
      | error e => exact .unbuilt h hp ht hb
      | panic m => exact .buildPanicked h hp ht hb

theorem awaitWork_steps (g : Engine) (id : Nat) (c : Bool) (guard : Guard) (t : Turn)
    (h : t.self.task = .invoking guard) : TaskSteps g id c t (awaitWork id c guard t) := by
  unfold awaitWork
  split
  · rename_i hs; exact .aborted h hs
  · rename_i hs
    have hf : Execution.stopped c t.self = false := by simpa using hs
    split
    · rename_i p hw; exact .replied h hf hw
    · rename_i e hw; exact .replied h hf hw
    · rename_i m hw; exact .replied h hf hw
    · rename_i h1 h2 h3
      refine .unreplied h hf ?_
      rintro (p | e | m) hw
      · exact h1 p hw
      · exact h2 e hw
      · exact h3 m hw

theorem report_steps (g : Engine) (id : Nat) (c : Bool) (guard : Guard)
    (result : Except Error Prediction) (t : Turn) (h : t.self.task = .reporting guard result) :
    TaskSteps g id c t (report g id c guard result t) := by
  unfold report
  split
  · exact .unreported h (.inr (by simp))
  · rename_i e
    split
    · rename_i hs
      refine .unreported h ?_
      rcases Bool.or_eq_true _ _ ▸ hs with he | hs
      · exact .inr (fun e' he' => by cases he'; simpa [Error.isCancelled] using he)
      · exact .inl hs
    · rename_i hs
      obtain ⟨he, hf⟩ : e ≠ .cancelled ∧ Execution.stopped c t.self = false := by
        simpa [Error.isCancelled] using hs
      unfold unlessPanic
      split
      · rename_i m hp; exact .reportPanicked h he hf hp
      · rename_i hp; exact .reported h he hf hp

theorem taskSteps_stepTask (g : Engine) (id : Nat) (c : Bool) (t : Turn) :
    TaskSteps g id c t (stepTask g id c t) := by
  cases h : t.self.task with
  | absent => simpa only [stepTask, h] using .absent h
  | opening => simpa only [stepTask, h] using openGuard_steps g id c t h
  | compiling guard => simpa only [stepTask, h] using compileNode_steps g id c guard t h
  | parsing guard m =>
    simp only [stepTask, h, parseInputs]
    split
    · rename_i inputs hi; exact .parsed h hi
    · rename_i e hi; exact .unparsed h hi
  | launching guard m inputs =>
    simp only [stepTask, h, launch]
    split
    · rename_i hs; exact .unlaunched h hs
    · rename_i hs; exact .launched h (by simpa using hs)
  | invoking guard => simpa only [stepTask, h] using awaitWork_steps g id c guard t h
  | reporting guard result => simpa only [stepTask, h] using report_steps g id c guard result t h
  | flushing guard result =>
    simp only [stepTask, h, flush, unlessPanic]
    split
    · rename_i m hp; exact .flushPanicked h hp
    · rename_i hp; exact .flushed h hp
  | settling result =>
    simp only [stepTask, h, settle]
    split
    · rename_i hs; exact .stopped h hs
    · rename_i hs; exact .settled h (by simpa using hs)
  | ended r => simpa only [stepTask, h] using .ended h

inductive WorkSteps (g : Engine) (id : Nat) (t : Turn) : Turn → Prop where
  | finished {guard : Guard} {m : Module} {inputs : Table Json} {models : List LanguageModel}
    {result : Except Error Prediction} {es : List Effect}
    (h : t.self.work = .ready guard m inputs)
    (hb : Invocation.begin (context t.self.request guard) t.site.moment t.site.models m inputs =
      (.finished result, models, es)) :
    WorkSteps g id t
      ({ t with
          site := ({ t.site with models := models } : Site).tick.emit (some id)
            (.forwardStarted inputs :: es) }.toWork (.ended (.ofExcept result)))
  | called {guard : Guard} {m : Module} {inputs : Table Json} {models : List LanguageModel}
    {call : Pending} {es : List Effect} (h : t.self.work = .ready guard m inputs)
    (hb : Invocation.begin (context t.self.request guard) t.site.moment t.site.models m inputs =
      (.pending call, models, es)) :
    WorkSteps g id t
      ({ t with
          site := ({ t.site with models := models } : Site).tick.emit (some id)
            (.forwardStarted inputs :: es) }.toWork
        (.calling guard call (t.site.now + call.delay)))
  | returned {guard : Guard} {call : Pending} {wake : Nat} {reply last : Reply Prediction}
    {span : Option Span} {models : List LanguageModel} {site : Site}
    (h : t.self.work = .calling guard call wake) (hw : wake ≤ t.site.now)
    (hf : call.finish (context t.self.request guard) t.site.moment t.site.models =
      (reply, span, models))
    (hk : keepSpan g id guard span reply ({ t.site with models := models } : Site).tick =
      (last, site)) :
    WorkSteps g id t ({ t with site := site }.toWork (.ended last))
  | waiting {guard : Guard} {call : Pending} {wake : Nat}
    (h : t.self.work = .calling guard call wake) (hw : t.site.now < wake) : WorkSteps g id t t
  | idle (h : t.self.work = .absent ∨ t.self.work = .aborted ∨ ∃ r, t.self.work = .ended r) :
    WorkSteps g id t t

theorem workSteps_stepWork (g : Engine) (id : Nat) (t : Turn) :
    WorkSteps g id t (stepWork g id t) := by
  cases h : t.self.work with
  | absent => simpa only [stepWork, h] using .idle (.inl h)
  | aborted => simpa only [stepWork, h] using .idle (.inr (.inl h))
  | ended r => simpa only [stepWork, h] using .idle (.inr (.inr ⟨r, h⟩))
  | ready guard m inputs =>
    simp only [stepWork, h, beginWork]
    rcases hb : Invocation.begin (context t.self.request guard) t.site.moment t.site.models m
      inputs with ⟨begun, models, es⟩
    cases begun with
    | finished result => exact .finished h hb
    | pending call => exact .called h hb
  | calling guard call wake =>
    simp only [stepWork, h]
    split
    · rename_i hw
      rcases hf : call.finish (context t.self.request guard) t.site.moment t.site.models with
        ⟨reply, span, models⟩
      rcases hk : keepSpan g id guard span reply ({ t.site with models := models } : Site).tick with
        ⟨last, site⟩
      simpa only [finishWork, hf, hk] using .returned h hw hf hk
    · rename_i hw; exact .waiting h (by omega)

theorem close_self (id : Nat) (t : Turn) :
    (close id t).self = { t.self with
      stage := .closed
      abandoned := t.self.abandoned || decide (t.self.stage = .awaiting) } := by
  unfold close
  split <;> simp_all

theorem close_site (id : Nat) (t : Turn) : (close id t).site = t.site := by
  unfold close
  split <;> rfl

theorem Polls.self_eq {id : Nat} {c : Bool} {t t' : Turn} {shown : Polled}
    (h : Polls id c t shown t') :
    t'.self = { t.self with stage := t'.self.stage, task := t'.self.task } := by
  cases h with
  | exhausted h =>
    rw [close_self]
    rcases h with h | ⟨b, h⟩ <;> simp [h]
  | _ => rfl

theorem Polls.request_eq {id : Nat} {c : Bool} {t t' : Turn} {shown : Polled}
    (h : Polls id c t shown t') : t'.self.request = t.self.request := by
  rw [h.self_eq]

theorem Polls.stage_of_failure {id : Nat} {c : Bool} {t t' : Turn} {e : Error}
    (h : Polls id c t (.failure e) t') : ∃ b, t'.self.stage = .failed b := by
  cases h <;> exact ⟨_, rfl⟩

theorem TaskSteps.self_eq {g : Engine} {id : Nat} {c : Bool} {t t' : Turn}
    (h : TaskSteps g id c t t') :
    t'.self = { t.self with task := t'.self.task, work := t'.self.work } := by
  cases h <;> rfl

theorem TaskSteps.stage_eq {g : Engine} {id : Nat} {c : Bool} {t t' : Turn}
    (h : TaskSteps g id c t t') : t'.self.stage = t.self.stage := by
  rw [h.self_eq]

theorem TaskSteps.request_eq {g : Engine} {id : Nat} {c : Bool} {t t' : Turn}
    (h : TaskSteps g id c t t') : t'.self.request = t.self.request := by
  rw [h.self_eq]

theorem WorkSteps.self_eq {g : Engine} {id : Nat} {t t' : Turn} (h : WorkSteps g id t t') :
    t'.self = { t.self with work := t'.self.work } := by
  cases h <;> rfl

theorem WorkSteps.stage_eq {g : Engine} {id : Nat} {t t' : Turn} (h : WorkSteps g id t t') :
    t'.self.stage = t.self.stage := by
  rw [h.self_eq]

theorem WorkSteps.request_eq {g : Engine} {id : Nat} {t t' : Turn} (h : WorkSteps g id t t') :
    t'.self.request = t.self.request := by
  rw [h.self_eq]

end Execution

end NodeRun
