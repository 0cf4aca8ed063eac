import NodeRun.Proofs.Journal
import NodeRun.Proofs.Sequential

namespace NodeRun

namespace Span

def untimed (x : Span) : Span := { x with id := "", timestamps := ⟨0, none⟩ }

@[simp] theorem untimed_finish (now : Int64) (x : Span) : (x.finish now).untimed = x.untimed := by
  unfold finish
  split <;> rfl

end Span

namespace Tracer

/-- Whether a span can be recorded does not hang on the clock. -/
def IsTimeless (t : Tracer) : Prop :=
  ∀ x, t.panic? (.recording x.untimed) = t.panic? (.recording x)

end Tracer

namespace Invocation

theorem untimed_startSpan (m m' : Moment) (type : SpanType) (name : String) :
    (m.startSpan type name).untimed = (m'.startSpan type name).untimed := by
  simp [Span.untimed, Moment.startSpan, Span.start]

theorem untimed_spanIf (c : InvocationContext) (m m' : Moment) (type : SpanType) (name : String)
    (input : Table Json) :
    (spanIf c m type name input).map Span.untimed =
      (spanIf c m' type name input).map Span.untimed := by
  unfold spanIf
  split
  · simp [Span.untimed, Moment.startSpan, Span.start]
  · rfl

theorem untimed_close {α : Type} {f : α → Span → Span}
    (hf : ∀ a x y, x.untimed = y.untimed → (f a x).untimed = (f a y).untimed) (now now' : Int64)
    (result : Except Error α) {x y : Span} (h : x.untimed = y.untimed) :
    (close now f result x).untimed = (close now' f result y).untimed := by
  unfold close
  rw [Span.untimed_finish, Span.untimed_finish]
  cases result with
  | ok a => exact hf a x y h
  | error e => exact congrArg (fun s : Span => { s with error := some e.message }) h

theorem untimed_map_close {α : Type} {f : α → Span → Span}
    (hf : ∀ a x y, x.untimed = y.untimed → (f a x).untimed = (f a y).untimed) (now now' : Int64)
    (result : Except Error α) {span span' : Option Span}
    (h : span.map Span.untimed = span'.map Span.untimed) :
    (span.map (close now f result)).map Span.untimed =
      (span'.map (close now' f result)).map Span.untimed := by
  cases span with
  | none =>
    cases span' with
    | none => rfl
    | some y => cases h
  | some x =>
    cases span' with
    | none => cases h
    | some y => exact congrArg some (untimed_close hf now now' result (Option.some.inj h))

end Invocation

abbrev Upshot := Reply Prediction × Option Span

namespace Pending

open LanguageModel Invocation

def upshot (c : InvocationContext) (models : List LanguageModel) (call : Pending) : Upshot :=
  let (reply, span, _) := call.finish c ⟨0, 0⟩ models
  (reply, span.map Span.untimed)

theorem settle_untimed {α : Type} (reply : Reply α)
    (f f' : Except Error α → Except Error Prediction × Option Span)
    (h : ∀ x, (f x).1 = (f' x).1)
    (hs : ∀ x, (f x).2.map Span.untimed = (f' x).2.map Span.untimed) :
    (settle reply f).1 = (settle reply f').1 ∧
      (settle reply f).2.map Span.untimed = (settle reply f').2.map Span.untimed := by
  cases reply with
  | ok x => exact ⟨by simp [settle, h], hs _⟩
  | error e => exact ⟨by simp [settle, h], hs _⟩
  | panic m => exact ⟨rfl, rfl⟩

theorem finishPredict_untimed (p : Predict) (m m' : Moment) {span span' : Option Span}
    (h : span.map Span.untimed = span'.map Span.untimed) (reply : Except Error Completion) :
    (finishPredict m p span reply).2.map Span.untimed =
      (finishPredict m' p span' reply).2.map Span.untimed :=
  untimed_map_close (fun a _ _ h => congrArg
    (fun s : Span => { s with output := some (.ofTable a.1), metrics := some a.2 }) h) _ _ _ h

theorem finishHosted_untimed (v : HostedEvaluator) (m m' : Moment) {span span' : Option Span}
    (h : span.map Span.untimed = span'.map Span.untimed) (reply : Except Error EvaluationResult) :
    (finishHosted m v span reply).2.map Span.untimed =
      (finishHosted m' v span' reply).2.map Span.untimed :=
  untimed_map_close (fun a _ _ h => congrArg
    (fun s : Span => { s with output := some (.ofTable a.outputs), metrics := costMetrics a }) h)
    _ _ _ h

theorem finishContexts_untimed (c : InvocationContext) (m m' : Moment) (r : ContextsRetriever)
    (query : String) (reply : Except Error (List Passage)) :
    (finishContexts c m r query reply).2.map Span.untimed =
      (finishContexts c m' r query reply).2.map Span.untimed := by
  have hstart : ({ m.startSpan .rag r.name with input := some (.str query) } : Span).untimed =
      ({ m'.startSpan .rag r.name with input := some (.str query) } : Span).untimed :=
    congrArg (fun s : Span => { s with input := some (.str query) })
      (untimed_startSpan m m' .rag r.name)
  simp only [finishContexts]
  split
  · refine congrArg some (untimed_close ?_ _ _ _ hstart)
    exact fun a _ _ h => congrArg
      (fun s : Span => { s with contexts := some (ContextsRetriever.contents a) }) h
  · rfl

section

variable {models : List LanguageModel} (hf : ∀ m ∈ models, m.IsFunction)

include hf

theorem finish_upshot {later : List LanguageModel} (hl : sources later = sources models)
    (call : Pending) (c : InvocationContext) (m : Moment) :
    ((call.finish c m later).1, (call.finish c m later).2.1.map Span.untimed) =
      call.upshot c models := by
  cases call with
  | completion p request asked span =>
    have hsource : (atPlace later p.model.index).source = (atPlace models p.model.index).source := by
      rw [atPlace_source, atPlace_source, hl]
    have hreply : ((atPlace later p.model.index).resolve asked request c.settings).1 =
        ((atPlace models p.model.index).resolve asked request c.settings).1 := by
      cases asked with
      | cached completion => rfl
      | waiting delay call =>
        exact answer_eq hsource (atPlace_isFunction hf _) call call request c.settings
    obtain ⟨h, hs⟩ := settle_untimed
      ((atPlace models p.model.index).resolve asked request c.settings).1
      (finishPredict m p span) (finishPredict ⟨0, 0⟩ p span)
      (fun _ => rfl) (finishPredict_untimed p m ⟨0, 0⟩ rfl)
    simp only [finish, upshot, hreply]
    exact Prod.ext h hs
  | passages r query =>
    obtain ⟨h, hs⟩ := settle_untimed (r.backend.reply query r.k c.settings)
      (finishContexts c m r query) (finishContexts c ⟨0, 0⟩ r query)
      (fun _ => rfl) (finishContexts_untimed c m ⟨0, 0⟩ r query)
    exact Prod.ext h hs
  | hosted v request span =>
    obtain ⟨h, hs⟩ := settle_untimed (v.client.reply request v.apiKey)
      (finishHosted m v span) (finishHosted ⟨0, 0⟩ v span)
      (fun _ => rfl) (finishHosted_untimed v m ⟨0, 0⟩ rfl)
    exact Prod.ext h hs
  | evaluator e inputs => rfl

theorem upshot_completion (c : InvocationContext) (p : Predict) (request : CompletionRequest)
    (delay delay' call call' : Nat) {span span' : Option Span}
    (h : span.map Span.untimed = span'.map Span.untimed) :
    (completion p request (.waiting delay call) span).upshot c models =
      (completion p request (.waiting delay' call') span').upshot c models := by
  have hreply : ((atPlace models p.model.index).answer call request c.settings).1 =
      ((atPlace models p.model.index).answer call' request c.settings).1 :=
    answer_eq rfl (atPlace_isFunction hf _) call' call request c.settings
  obtain ⟨h, hs⟩ := settle_untimed
    ((atPlace models p.model.index).answer call' request c.settings).1
    (finishPredict ⟨0, 0⟩ p span) (finishPredict ⟨0, 0⟩ p span')
    (fun _ => rfl) (finishPredict_untimed p ⟨0, 0⟩ ⟨0, 0⟩ h)
  simp only [upshot, finish, resolve, hreply]
  exact Prod.ext h hs

end

theorem upshot_hosted (c : InvocationContext) (models : List LanguageModel) (v : HostedEvaluator)
    (request : EvaluationRequest) {span span' : Option Span}
    (h : span.map Span.untimed = span'.map Span.untimed) :
    (hosted v request span).upshot c models = (hosted v request span').upshot c models := by
  obtain ⟨h, hs⟩ := settle_untimed (v.client.reply request v.apiKey)
    (finishHosted ⟨0, 0⟩ v span) (finishHosted ⟨0, 0⟩ v span')
    (fun _ => rfl) (finishHosted_untimed v ⟨0, 0⟩ ⟨0, 0⟩ h)
  exact Prod.ext h hs

end Pending

namespace Begun

def upshot (c : InvocationContext) (models : List LanguageModel) : Begun → Upshot
  | finished result => (.ofExcept result, none)
  | pending call => call.upshot c models

end Begun

namespace Module

open LanguageModel Invocation

def upshot (c : InvocationContext) (models : List LanguageModel) (module : Module)
    (inputs : Table Json) : Upshot :=
  (Invocation.begin c ⟨0, 0⟩ models module inputs).1.upshot c models

theorem begin_upshot {models : List LanguageModel} (hf : ∀ m ∈ models, m.IsFunction)
    {c : InvocationContext} (hc : c.settings = .fresh) (m : Moment) (later : List LanguageModel)
    (module : Module) (inputs : Table Json) :
    (Invocation.begin c m later module inputs).1.upshot c models =
      module.upshot c models inputs := by
  cases module with
  | terminal => rfl
  | evaluator e => rfl
  | contexts r =>
    simp only [upshot, Invocation.begin]
    cases ContextsRetriever.query inputs <;> rfl
  | hosted v => exact Pending.upshot_hosted c models v _ (untimed_spanIf c m ⟨0, 0⟩ _ _ _)
  | predict p =>
    have asked (models' : List LanguageModel) :
        ∃ delay call, ((atPlace models' p.model.index).ask (p.request inputs) c.settings).1 =
          .waiting delay call := ⟨_, _, hc ▸ ask_fresh _ _⟩
    obtain ⟨delay, call, ha⟩ := asked later
    obtain ⟨delay', call', ha'⟩ := asked models
    have hspan : ((spanIf c m .llm p.schema.name inputs).map
        fun s => { s with model := some p.model.name }).map Span.untimed =
        ((spanIf c ⟨0, 0⟩ .llm p.schema.name inputs).map
          fun s => { s with model := some p.model.name }).map Span.untimed := by
      have h := congrArg (Option.map fun s : Span => { s with model := some p.model.name })
        (untimed_spanIf c m ⟨0, 0⟩ .llm p.schema.name inputs)
      simp only [Option.map_map] at h ⊢
      exact h
    simp only [upshot, Invocation.begin, Begun.upshot, ha, ha']
    exact Pending.upshot_completion hf c p _ delay delay' call call' hspan

end Module

namespace Reply

def orPanic (panic? : Option String) (reply : Reply Prediction) : Reply Prediction :=
  match panic? with
  | some m => .panic m
  | none => reply

end Reply

namespace Execution

open LanguageModel

section

variable (g : Engine) (models : List LanguageModel) (id : Nat) (r : ExecuteRequest)

def isTraced : Bool :=
  r.workflow.enableTracing && (g.tracer.opens (traceOptions g.config r)).toBool

def scopePanic? (traced : Bool) (call : TraceOptions → TracerCall) : Option String :=
  if traced then g.tracer.panic? (call (traceOptions g.config r)) else none

def recordPanic? (traced : Bool) (span : Option Span) : Option String :=
  if traced then span.bind (fun x => g.tracer.panic? (.recording x)) else none

def kept (traced : Bool) (u : Upshot) : Reply Prediction :=
  .orPanic (recordPanic? g traced u.2) u.1

def workEnd : Work → Reply Prediction
  | .ready guard m inputs =>
    kept g guard.isSome (m.upshot (context r guard) models inputs)
  | .calling guard call _ => kept g guard.isSome (call.upshot (context r guard) models)
  | .ended reply => reply
  | _ => .error .cancelled

def flushEnd (traced : Bool) (result : Except Error Prediction) : Reply Prediction :=
  .orPanic (scopePanic? g r traced .flushing) (.ofExcept result)

def reportEnd (traced : Bool) (result : Except Error Prediction) : Reply Prediction :=
  match result with
  | .ok _ => flushEnd g r traced result
  | .error e =>
    .orPanic (if e = .cancelled then none else reportPanic? g) (flushEnd g r traced result)

def invokeEnd (traced : Bool) (reply : Reply Prediction) : Reply Prediction :=
  reportEnd g r traced (reply.toExcept (workPanic id))

def launchEnd (traced : Bool) (m : Module) (inputs : Table Json) : Reply Prediction :=
  invokeEnd g id r traced (kept g traced (m.upshot ⟨r.traceId, .fresh, traced⟩ models inputs))

def parseEnd (traced : Bool) (m : Module) : Reply Prediction :=
  match Field.autoparse (declaredInputs r) r.inputs with
  | .ok inputs => launchEnd g models id r traced m inputs
  | .error e => reportEnd g r traced (.error e)

def buildEnd (traced : Bool) : Reply Prediction :=
  match target r with
  | .error e => reportEnd g r traced (.error e)
  | .ok n =>
    match (g.compiler.compile n r.workflow).1 with
    | .ok m => parseEnd g models id r traced m
    | .error e => reportEnd g r traced (.error e)
    | .panic m => .panic m

def compileEnd (traced : Bool) : Reply Prediction :=
  .orPanic (scopePanic? g r traced .tracking) (buildEnd g models id r traced)

def wholeEnd : Reply Prediction :=
  .orPanic (openPanic? g r) (compileEnd g models id r (isTraced g r))

/-- The reply with which a task will end that is not stopped, given its work. -/
def taskEnd (w : Work) : Task → Reply Prediction
  | .absent => wholeEnd g models id r
  | .opening => wholeEnd g models id r
  | .compiling guard => compileEnd g models id r guard.isSome
  | .parsing guard m => parseEnd g models id r guard.isSome m
  | .launching guard m inputs => launchEnd g models id r guard.isSome m inputs
  | .invoking guard => invokeEnd g id r guard.isSome (workEnd g models r w)
  | .reporting guard result => reportEnd g r guard.isSome result
  | .flushing guard result => flushEnd g r guard.isSome result
  | .settling result => .ofExcept result
  | .ended reply => reply

end

def guard? : Task → Guard
  | .compiling guard => guard
  | .flushing guard _ => guard
  | .parsing guard _ => guard
  | .launching guard _ _ => guard
  | .invoking guard => guard
  | .reporting guard _ => guard
  | _ => none

def Scoped (c : EngineConfig) (x : Execution) (s : Site) : Prop :=
  ∀ place, guard? x.task = some place → s.optionsAt place = some (traceOptions c x.request)

section

variable {g : Engine} {models : List LanguageModel} {id : Nat} {c : Bool} {t t' : Turn}
  {s s' : Site} {r : ExecuteRequest}

theorem panic?_eq {guard : Guard}
    (h : ∀ place, guard = some place → s.optionsAt place = some (traceOptions g.config r))
    (call : TraceOptions → TracerCall) :
    guard.panic? s g.tracer call = scopePanic? g r guard.isSome call := by
  cases guard with
  | none => rfl
  | some place =>
    obtain ⟨scope, hs, ho⟩ := Option.map_eq_some_iff.mp (h place rfl)
    simp [Guard.panic?, scopePanic?, hs, ho]

theorem isTraced_of_ok {guard : Guard}
    (h : Guard.openScope s g.tracer (some id) r.workflow.enableTracing
      (traceOptions g.config r) = (.ok guard, s')) : isTraced g r = guard.isSome := by
  unfold Guard.openScope Site.openScope Tracer.openScope at h
  unfold isTraced
  cases hw : r.workflow.enableTracing with
  | false =>
    simp only [hw, Bool.false_eq_true, if_false, Prod.mk.injEq, Except.ok.injEq] at h
    simp [← h.1]
  | true =>
    cases ho : g.tracer.opens (traceOptions g.config r) with
    | error e => simp [hw, ho, Except.map] at h
    | ok =>
      simp only [hw, ho, if_true, Except.map, Prod.mk.injEq, Except.ok.injEq] at h
      simp [← h.1, Except.toBool]

theorem isTraced_of_error {e : Error}
    (h : Guard.openScope s g.tracer (some id) r.workflow.enableTracing
      (traceOptions g.config r) = (.error e, s')) : isTraced g r = false := by
  unfold Guard.openScope Site.openScope Tracer.openScope at h
  unfold isTraced
  cases ho : g.tracer.opens (traceOptions g.config r) with
  | error e => simp [Except.toBool]
  | ok =>
    simp only [ho, Except.map] at h
    split at h <;> simp at h

theorem TaskSteps.scoped_of (hs : TaskSteps g id c t t') (h : Scoped g.config t.self t.site) :
    Scoped g.config t'.self t'.site := by
  intro place hp
  rw [hs.request_eq]
  obtain ⟨es, ha⟩ := hs.adds
  have same (hg : guard? t'.self.task = guard? t.self.task) :
      t'.site.optionsAt place = some (traceOptions g.config t.self.request) :=
    ha.scopes (h place (hg ▸ hp))
  cases hs with
  | opened _ _ ho =>
    rcases Guard.of_openScope_ok ho with ⟨-, rfl, -⟩ | ⟨-, i, rfl, hi, -⟩
    · cases hp
    · cases hp
      exact hi
  | absent => exact same rfl
  | ended => exact same rfl
  | unreplied => exact same rfl
  | untargeted hk => exact same (by rw [hk]; rfl)
  | built hk => exact same (by rw [hk]; rfl)
  | unbuilt hk => exact same (by rw [hk]; rfl)
  | parsed hk => exact same (by rw [hk]; rfl)
  | unparsed hk => exact same (by rw [hk]; rfl)
  | launched hk => exact same (by rw [hk]; rfl)
  | unlaunched hk => exact same (by rw [hk]; rfl)
  | replied hk => exact same (by rw [hk]; rfl)
  | aborted hk => exact same (by rw [hk]; rfl)
  | unreported hk => exact same (by rw [hk]; rfl)
  | reported hk => exact same (by rw [hk]; rfl)
  | _ => cases hp

theorem TaskSteps.taskEnd_eq (hs : TaskSteps g id false t t') (ha : t.self.abandoned = false)
    (h : Scoped g.config t.self t.site) :
    taskEnd g models id t.self.request t'.self.work t'.self.task =
      taskEnd g models id t.self.request t.self.work t.self.task := by
  -- The task is not stopped, and so the steps of a stopped one do not occur.
  have hrun : Execution.stopped false t.self = false := by simp [Execution.stopped, ha]
  have panics {guard : Guard} {call : TraceOptions → TracerCall} {panic? : Option String}
      (hk : guard? t.self.task = guard) (hp : guard.panic? t.site g.tracer call = panic?) :
      scopePanic? g t.self.request guard.isSome call = panic? := by
    rw [← panic?_eq fun place hg => h place (hk.trans hg), hp]
  cases hs with
  | absent => rfl
  | ended => rfl
  | unreplied => rfl
  | openPanicked hk hp => simp [hk, taskEnd, wholeEnd, hp, Reply.orPanic]
  | opened hk hp ho =>
    simp [hk, taskEnd, wholeEnd, hp, Reply.orPanic, isTraced_of_ok ho]
  | refused hk hp ho => simp [hk, taskEnd, wholeEnd, hp, Reply.orPanic, isTraced_of_error ho]
  | trackPanicked hk hp =>
    have hp := panics (by rw [hk]; rfl) hp
    simp [hk, taskEnd, compileEnd, hp, Reply.orPanic]
  | untargeted hk hp ht =>
    have hp := panics (by rw [hk]; rfl) hp
    simp [hk, taskEnd, compileEnd, buildEnd, hp, ht, Reply.orPanic]
  | built hk hp ht hb =>
    have hp := panics (by rw [hk]; rfl) hp
    simp [hk, taskEnd, compileEnd, buildEnd, hp, ht, hb, Reply.orPanic]
  | unbuilt hk hp ht hb =>
    have hp := panics (by rw [hk]; rfl) hp
    simp [hk, taskEnd, compileEnd, buildEnd, hp, ht, hb, Reply.orPanic]
  | buildPanicked hk hp ht hb =>
    have hp := panics (by rw [hk]; rfl) hp
    simp [hk, taskEnd, compileEnd, buildEnd, hp, ht, hb, Reply.orPanic]
  | parsed hk hi => simp [hk, taskEnd, parseEnd, hi]
  | unparsed hk hi => simp [hk, taskEnd, parseEnd, hi]
  | launched hk => simp [hk, taskEnd, launchEnd, workEnd, context]
  | unlaunched _ hs => simp [hrun] at hs
  | replied hk _ hw => simp [hk, hw, taskEnd, invokeEnd, workEnd]
  | aborted _ hs => simp [hrun] at hs
  | @unreported _ result hk hr =>
    simp only [hrun, Bool.false_eq_true, false_or] at hr
    cases result with
    | ok p => simp [hk, taskEnd, reportEnd]
    | error e => simp [hk, taskEnd, reportEnd, hr e rfl, Reply.orPanic]
  | reported hk he _ hp => simp [hk, taskEnd, reportEnd, he, hp, Reply.orPanic]
  | reportPanicked hk he _ hp => simp [hk, taskEnd, reportEnd, he, hp, Reply.orPanic]
  | flushPanicked hk hp =>
    have hp := panics (by rw [hk]; rfl) hp
    simp [hk, taskEnd, flushEnd, hp, Reply.orPanic]
  | flushed hk hp =>
    have hp := panics (by rw [hk]; rfl) hp
    simp [hk, taskEnd, flushEnd, hp, Reply.orPanic]
  | stopped _ hs => simp [hrun] at hs
  | settled hk => simp [hk, taskEnd]

theorem kept_of_keepSpan (hg : g.tracer.IsTimeless) {guard : Guard} {span : Option Span}
    {reply last : Reply Prediction} (h : keepSpan g id guard span reply s = (last, s')) :
    last = kept g guard.isSome (reply, span.map Span.untimed) := by
  unfold keepSpan at h
  unfold kept recordPanic?
  cases guard with
  | none =>
    cases h
    rfl
  | some place =>
    cases span with
    | none =>
      cases h
      rfl
    | some x =>
      simp only [Option.isSome_some, if_true, Option.map_some, Option.bind_some, hg x]
      cases hp : g.tracer.panic? (.recording x) with
      | none =>
        simp only [hp] at h
        exact (congrArg Prod.fst h).symm
      | some m =>
        simp only [hp] at h
        exact (congrArg Prod.fst h).symm

theorem WorkSteps.workEnd_eq (hs : WorkSteps g id t t') (hf : ∀ m ∈ models, m.IsFunction)
    (hg : g.tracer.IsTimeless) (hm : sources t.site.models = sources models) :
    workEnd g models t.self.request t'.self.work =
      workEnd g models t.self.request t.self.work := by
  have begun {guard m inputs begun after es}
      (hb : Invocation.begin (context t.self.request guard) t.site.moment t.site.models m inputs =
        (begun, after, es)) :
      begun.upshot (context t.self.request guard) models =
        m.upshot (context t.self.request guard) models inputs := by
    have hu := Module.begin_upshot hf (c := context t.self.request guard) rfl t.site.moment
      t.site.models m inputs
    rwa [hb] at hu
  cases hs with
  | waiting => rfl
  | idle => rfl
  | @finished guard _ _ _ _ _ hw hb =>
    simp only [hw, workEnd, ← begun hb]
    cases guard <;> rfl
  | called hw hb =>
    simp only [hw, workEnd, ← begun hb]
    rfl
  | @returned guard call _ _ _ _ _ _ hw _ hfin hk =>
    have hu := Pending.finish_upshot hf hm call (context t.self.request guard) t.site.moment
    rw [hfin] at hu
    simp only [hw, workEnd, ← hu]
    exact kept_of_keepSpan hg hk

end

/-- Nothing has come in the way of the execution, and it will end as it would have from its
beginning. -/
structure OnCourse (g : Engine) (models : List LanguageModel) (id : Nat) (x : Execution)
    (s : Site) : Prop where
  abandoned : x.abandoned = false
  scope : Scoped g.config x s
  onward : taskEnd g models id x.request x.work x.task = wholeEnd g models id x.request

def script (g : Engine) (models : List LanguageModel) (id : Nat) (r : ExecuteRequest)
    (started ended : Int64) : List (Except Error Event) :=
  .ok announcement ::
    match target r with
    | .error e => [.error e]
    | .ok _ => [.ok (startEvent r started),
        ((wholeEnd g models id r).toExcept (taskPanic id)).map (fun p => endEvent r p ended)]

section

variable {g : Engine} {models : List LanguageModel} {id : Nat} {t t' : Turn} {shown : Polled}

theorem OnCourse.mono {x : Execution} {s s' : Site} {who : Option Nat} {es : List Effect}
    (h : OnCourse g models id x s) (ha : s.Adds s' who es) : OnCourse g models id x s' :=
  ⟨h.abandoned, fun place hp => ha.scopes (h.scope place hp), h.onward⟩

theorem OnCourse.close (h : OnCourse g models id t.self t.site) (ho : t.self.stage.IsOver) :
    OnCourse g models id (close id t).self (close id t).site := by
  rw [close_over ho, close_site]
  exact ⟨h.abandoned, h.scope, h.onward⟩

theorem OnCourse.poll {c : Bool} (h : OnCourse g models id t.self t.site)
    (hp : Polls id c t shown t') : OnCourse g models id t'.self t'.site := by
  obtain ⟨es, ha, -⟩ := hp.adds
  cases hp with
  | spawned => exact ⟨h.abandoned, fun place hp => (by cases hp), rfl⟩
  | exhausted hs => exact h.close (hs.imp_right .inr)
  | _ => exact ⟨h.abandoned, (h.mono ha).scope, h.onward⟩

theorem OnCourse.task (h : OnCourse g models id t.self t.site) (hs : TaskSteps g id false t t') :
    OnCourse g models id t'.self t'.site := by
  have hend : taskEnd g models id t.self.request t'.self.work t'.self.task = _ :=
    (hs.taskEnd_eq h.abandoned h.scope).trans h.onward
  refine ⟨?_, hs.scoped_of h.scope, ?_⟩
  · rw [hs.self_eq]
    exact h.abandoned
  · rw [hs.request_eq]
    exact hend

theorem OnCourse.work (h : OnCourse g models id t.self t.site) (hs : WorkSteps g id t t')
    (hf : ∀ m ∈ models, m.IsFunction) (hg : g.tracer.IsTimeless)
    (hm : sources t.site.models = sources models) : OnCourse g models id t'.self t'.site := by
  obtain ⟨es, ha, -⟩ := hs.adds
  have hend := hs.workEnd_eq hf hg hm
  have hk : t'.self.task = t.self.task := by rw [hs.self_eq]
  refine ⟨?_, ?_, ?_⟩
  · rw [hs.self_eq]
    exact h.abandoned
  · intro place hp
    rw [hs.request_eq]
    exact ha.scopes (h.scope place (hk ▸ hp))
  · have hon := h.onward
    rw [hs.request_eq, hk]
    generalize t.self.task = task at hon
    cases task with
    | invoking guard => simpa only [taskEnd, hend] using hon
    | _ => exact hon

theorem Said.script {item : Except Error Event} {dropped : Prop}
    {items : List (Except Error Event)}
    (h : Said t.self.request dropped
      (fun items => ∃ started ended,
        items = Execution.script g models id t.self.request started ended) t.self.stage items)
    (ho : OnCourse g models id t.self t.site) (hp : Polls id false t shown t')
    (hi : shown.item? = some item) (hover : t'.self.stage.IsOver) :
    ∃ started ended,
      items ++ [item] = Execution.script g models id t.self.request started ended := by
  have awaited {reply : Reply Prediction} (hs : t.self.stage = .awaiting)
      (hk : t.self.task = .ended reply) : ∃ started, ∀ ended,
      items ++ [(reply.toExcept (taskPanic id)).map fun p => endEvent t.self.request p ended] =
        Execution.script g models id t.self.request started ended := by
    have hend := ho.onward
    rw [hk] at hend
    rw [hs] at h
    cases h with
    | @awaiting _ now ht =>
      exact ⟨now, fun ended => by simp only [Execution.script, ht, ← hend, taskEnd]; rfl⟩
  cases hp with
  | refused _ hc => cases hc
  | left _ hc => cases hc
  | halted _ _ hc => cases hc
  | untargeted hs ht =>
    cases hi
    rw [hs] at h
    cases h
    exact ⟨0, 0, by simp [Execution.script, ht]⟩
  | succeeded hs hk =>
    cases hi
    obtain ⟨now, heq⟩ := awaited hs hk
    exact ⟨now, t.site.time, heq _⟩
  | failed hs hk =>
    cases hi
    obtain ⟨now, heq⟩ := awaited hs hk
    exact ⟨now, 0, heq 0⟩
  | panicked hs hk =>
    cases hi
    obtain ⟨now, heq⟩ := awaited hs hk
    exact ⟨now, 0, heq 0⟩
  | _ => simp_all [Stage.IsOver, Polled.item?]

end

end Execution

namespace Service

open LanguageModel Execution

section

variable {g : Engine} {models : List LanguageModel} {s : Service} {e : Step} {id : Nat}
  {x x' : Served} {dropped : Prop} {whole : List (Except Error Event) → Prop}
  {items : List (Except Error Event)}

theorem Told.onCourse {shown : Polled} {s' : Service} (ht : Told dropped whole x items)
    (h : OnCourse g models id x.execution s.site) (hf : Feeds s id x shown x' s') :
    OnCourse g models id x'.execution s'.site := by
  refine ht.keeps (P := fun y site => OnCourse g models id y site) hf ?_ ?_ h
  · intro shown t hp
    exact OnCourse.poll (t := s.turn x) h hp
  · intro t ho hc
    exact hc.close ho

theorem Told.holds_course (ht : Told dropped whole x items)
    (h : OnCourse g models id x.execution s.site) (hx : s.served[id]? = some x)
    (hm : Moves s e id x x')
    (hf : ∀ m ∈ models, m.IsFunction) (hg : g.tracer.IsTimeless) (he : e.engine = g)
    (hd : e.action ≠ .drop id) (hc : x.cancelled = false)
    (hs : sources s.site.models = sources models) :
    OnCourse g models id x'.execution (s.act e).site := by
  cases hm with
  | rested =>
    obtain ⟨es, ha, -⟩ := adds_act s e
    exact h.mono ha
  | polled ha hfeed hp =>
    simpa only [act, ha, hp] using ht.onCourse h hfeed
  | dropped ha => exact absurd ha hd
  | undropped ha => exact absurd ha hd
  | tasked ha =>
    have hsteps := taskSteps_stepTask e.engine id x.cancelled (s.turn x)
    rw [he, hc] at hsteps
    have hon := OnCourse.task (t := s.turn x) h hsteps
    simpa only [act, ha, stepTask, hx, he, hc, put_site] using hon
  | worked ha =>
    have hsteps := workSteps_stepWork e.engine id (s.turn x)
    rw [he] at hsteps
    have hon := OnCourse.work (t := s.turn x) h hsteps hf hg hs
    simpa only [act, ha, stepWork, hx, he, put_site] using hon

theorem onCourse_arrival {r : ExecuteRequest} (hx : x.execution = .ofRequest r) (site : Site) :
    OnCourse g models id x.execution site := by
  rw [hx]
  exact ⟨rfl, fun place hp => (by cases hp), rfl⟩

end

section

variable {g : Engine} {models initial : List LanguageModel} {es : List Step} {id : Nat}
  {x : Served}

/-- The models may be others than those that the ending is told from, as long as they come from the
same sources. -/
theorem onCourse_run (hx : ((start g initial).run es).served[id]? = some x)
    (hs : sources initial = sources models) (hf : ∀ m ∈ models, m.IsFunction)
    (hg : g.tracer.IsTimeless) (he : ∀ e ∈ es, e.engine = g)
    (hd : ∀ e ∈ es, e.action ≠ .drop id) (hc : x.cancelled = false) :
    OnCourse g models id x.execution ((start g initial).run es).site ∧
      Told False (fun items => ∃ started ended,
          items = script g models id x.execution.request started ended)
        x ((start g initial).items id es) := by
  revert he hd hc
  refine run_induction (motive := fun es id x =>
    (∀ e ∈ es, e.engine = g) → (∀ e ∈ es, e.action ≠ .drop id) → x.cancelled = false →
    OnCourse g models id x.execution ((start g initial).run es).site ∧
      Told False (fun items => ∃ started ended,
          items = script g models id x.execution.request started ended)
        x ((start g initial).items id es)) ?_ ?_ hx
  · intro es e x ha _ _ _
    obtain ⟨-, -, r, hr⟩ := of_arrival ha
    exact ⟨onCourse_arrival hr _, told_arrival _ _ ha⟩
  · intro es e id x x' hx hm ih he hd hc'
    -- What is not cancelled after the step was not cancelled before it.
    have hc : x.cancelled = false := by
      by_contra hc
      simp [hm.carried.cancelled (by simpa using hc)] at hc'
    obtain ⟨hon, ht⟩ := ih (fun f hf => he f (List.mem_append_left _ hf))
      (fun f hf => hd f (List.mem_append_left _ hf)) hc
    have hde : e.action ≠ .drop id := hd e (by simp)
    have hsources : sources ((start g initial).run es).site.models = sources models :=
      (run_sources g initial es).trans hs
    rw [run_append, run_cons, run_nil, items_concat, hm.carried.request]
    refine ⟨ht.holds_course hon hx hm hf hg (he e (by simp)) hde hc hsources, ?_⟩
    have hmoved := ht.moves hx hm fun hp hi ho => by
      rw [hc] at hp
      exact ht.said.script hon hp hi ho
    exact ⟨hmoved.said.imp (by simp [hde]), hmoved.isOver⟩

end

end Service

end NodeRun
