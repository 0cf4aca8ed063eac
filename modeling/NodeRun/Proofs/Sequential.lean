import NodeRun.Proofs.Forward
import NodeRun.Proofs.Protocol

namespace NodeRun

namespace Site

variable (s : Site) (t : Tracer) (who : Option Nat)

@[simp] theorem emit_models (es : List Effect) : (s.emit who es).models = s.models := rfl

@[simp] theorem tick_models : s.tick.models = s.models := rfl

@[simp] theorem openScope_models (o : TraceOptions) :
    (s.openScope t who o).2.models = s.models := by
  unfold openScope
  split <;> rfl

@[simp] theorem record_models (place : Nat) (x : Span) :
    (s.record t who place x).models = s.models := by
  unfold record
  split <;> rfl

@[simp] theorem flush_models (place : Nat) : (s.flush t who place).2.models = s.models := by
  unfold flush
  split <;> rfl

end Site

namespace Guard

variable (s : Site) (t : Tracer) (who : Option Nat)

@[simp] theorem openScope_models (wanted : Bool) (o : TraceOptions) :
    (openScope s t who wanted o).2.models = s.models := by
  unfold openScope
  split <;> simp

@[simp] theorem finish_models (guard : Guard) : (guard.finish s t who).2.models = s.models := by
  unfold finish
  split
  · rfl
  · rename_i place
    have h := Site.flush_models s t who place
    split
    · rename_i site hf
      simpa [hf] using h
    · rename_i e site hf
      simpa [hf] using h

end Guard

namespace Execution

open LanguageModel

theorem models_of_keepSpan {g : Engine} {id : Nat} {guard : Guard} {span : Option Span}
    {reply last : Reply Prediction} {s s' : Site}
    (h : keepSpan g id guard span reply s = (last, s')) : s'.models = s.models := by
  unfold keepSpan at h
  split at h
  · split at h
    · cases h
      rfl
    · cases h
      simp
  · cases h
    rfl

theorem Polls.models_eq {id : Nat} {c : Bool} {t t' : Turn} {shown : Polled}
    (h : Polls id c t shown t') : t'.site.models = t.site.models := by
  cases h with
  | exhausted => rw [close_site]
  | _ => rfl

theorem TaskSteps.models_eq {g : Engine} {id : Nat} {c : Bool} {t t' : Turn}
    (h : TaskSteps g id c t t') : t'.site.models = t.site.models := by
  cases h with
  | opened _ _ ho =>
    have := Guard.openScope_models t.site g.tracer (some id)
      t.self.request.workflow.enableTracing (traceOptions g.config t.self.request)
    rwa [ho] at this
  | refused _ _ ho =>
    have := Guard.openScope_models t.site g.tracer (some id)
      t.self.request.workflow.enableTracing (traceOptions g.config t.self.request)
    rwa [ho] at this
  | flushed => exact Guard.finish_models _ _ _ _
  | _ => rfl

theorem WorkSteps.sources_eq {g : Engine} {id : Nat} {t t' : Turn} (h : WorkSteps g id t t') :
    sources t'.site.models = sources t.site.models := by
  cases h with
  | finished _ hb => exact Module.sources_of_begin hb
  | called _ hb => exact Module.sources_of_begin hb
  | returned _ _ hf hk =>
    exact (congrArg sources (models_of_keepSpan hk)).trans (Module.sources_of_finish hf)
  | _ => rfl

end Execution

namespace Service

open LanguageModel Execution

@[simp] theorem note_models (s : Service) (n : Notice) :
    (s.note n).site.models = s.site.models := rfl

@[simp] theorem put_models (s : Service) (id : Nat) (x : Served) (t : Turn) :
    (s.put id x t).site.models = t.site.models := rfl

@[simp] theorem cancel_models (s : Service) (id : Nat) :
    (s.cancel id).site.models = s.site.models := by
  unfold cancel
  split <;> rfl

@[simp] theorem closeFeed_models (s : Service) (id : Nat) (x : Served) :
    (s.closeFeed id x).site.models = s.site.models := by
  unfold closeFeed
  split <;> simp [close_site]

@[simp] theorem register_models (s : Service) (r : ExecuteRequest) :
    (s.register r).site.models = s.site.models := by
  unfold register
  cases s.running.get? r.traceId <;> simp

@[simp] theorem stop_models (s : Service) (r : StopRequest) :
    (s.stop r).site.models = s.site.models := by
  unfold stop
  split <;> simp

theorem Feeds.models_eq {s s' : Service} {id : Nat} {x x' : Served} {shown : Polled}
    (h : Feeds s id x shown x' s') : s'.site.models = s.site.models := by
  refine h.keeps (P := fun _ site => site.models = s.site.models) ?_ ?_ rfl
  · intro shown t hp
    exact hp.models_eq
  · intro t _ ht
    rwa [close_site]

theorem act_sources (s : Service) (e : Step) :
    sources (s.act e).site.models = sources s.site.models := by
  unfold act
  cases e.action with
  | handle c => cases c <;> simp [handle, execute, add]
  | launch r b => rfl
  | cancel id =>
    simp only [cancelLaunched]
    split
    · split <;> simp
    · rfl
  | poll id =>
    cases hx : s.served[id]? with
    | none => simp only [poll, hx]
    | some x =>
      obtain ⟨x', hp⟩ := feeds_poll hx
      simp only [hp.models_eq]
  | drop id =>
    simp only [drop]
    split
    · split <;> simp
    · rfl
  | task id =>
    simp only [stepTask]
    split
    · rename_i x _
      exact congrArg sources (taskSteps_stepTask e.engine id x.cancelled (s.turn x)).models_eq
    · rfl
  | work id =>
    simp only [stepWork]
    split
    · rename_i x _
      exact (workSteps_stepWork e.engine id (s.turn x)).sources_eq
    · rfl
  | wait now => rfl

theorem run_sources (g : Engine) (models : List LanguageModel) (es : List Step) :
    sources ((start g models).run es).site.models = sources models := by
  induction es using List.reverseRecOn with
  | nil => rfl
  | append_singleton es e ih => rw [run_append, run_cons, run_nil, act_sources, ih]

end Service

def ExecuteRequest.tracing (r : ExecuteRequest) (b : Bool) : ExecuteRequest :=
  { r with workflow := { r.workflow with enableTracing := b } }

namespace Execution

open LanguageModel

def outcome (c : Compiler) (models : List LanguageModel) (id : Nat) (r : ExecuteRequest)
    (n : Node) : Except Error Prediction := do
  let m ← (c.compile n r.workflow).1.toExcept (taskPanic id)
  let inputs ← Field.autoparse n.inputs r.inputs
  (m.answer models r.traceId inputs).toExcept (workPanic id)

def sequential (c : Compiler) (models : List LanguageModel) (id : Nat) (r : ExecuteRequest)
    (started ended : Int64) : List (Except Error Event) :=
  .ok announcement ::
    match r.workflow.validate with
    | .error e => [.error e]
    | .ok () =>
      match r.workflow.node? r.nodeId with
      | none => [.error (.nodeNotFound r.nodeId)]
      | some n =>
        [.ok (startEvent r started),
          (outcome c models id r n).map (fun p => endEvent r p ended)]

section

variable {c : Compiler} {models : List LanguageModel} {id : Nat} {r : ExecuteRequest}
  {started ended : Int64} {n : Node}

theorem sequential_of_error {e : Error} (h : target r = .error e) :
    sequential c models id r started ended = [.ok announcement, .error e] := by
  unfold target at h
  cases hv : r.workflow.validate with
  | error e' =>
    rw [hv] at h
    cases h
    simp only [sequential, hv]
  | ok =>
    cases hn : r.workflow.node? r.nodeId with
    | none =>
      rw [hv, hn] at h
      cases h
      simp only [sequential, hv, hn]
    | some n =>
      rw [hv, hn] at h
      cases h

theorem sequential_of_ok (h : target r = .ok n) :
    sequential c models id r started ended =
      [.ok announcement, .ok (startEvent r started),
        (outcome c models id r n).map (fun p => endEvent r p ended)] := by
  unfold target at h
  cases hv : r.workflow.validate with
  | error e =>
    rw [hv] at h
    cases h
  | ok =>
    cases hn : r.workflow.node? r.nodeId with
    | none =>
      rw [hv, hn] at h
      cases h
    | some m =>
      rw [hv, hn] at h
      cases h
      simp only [sequential, hv, hn]

/-- The only state of success is that of the outcome, with its outputs and its cost as they are. -/
theorem success_of_mem_sequential {node : String} {state : ExecutionState}
    (h : .ok (.componentState node state) ∈ sequential c models id r started ended)
    (hs : state.status = .success) :
    ∃ n p, target r = .ok n ∧ outcome c models id r n = .ok p ∧ node = r.nodeId ∧
      state.outputs = some p.outputs ∧ state.cost = p.cost := by
  cases ht : target r with
  | error e => simp [sequential_of_error ht, announcement] at h
  | ok n =>
    rw [sequential_of_ok ht] at h
    have hstart : (.ok (.componentState node state) : Except Error Event) ≠
        .ok (startEvent r started) := by
      rintro ⟨⟩
      cases hs
    cases ho : outcome c models id r n with
    | error e => simp_all [announcement, Except.map]
    | ok p =>
      obtain ⟨rfl, rfl⟩ : node = r.nodeId ∧
          state = .success r.traceId p.outputs p.cost ended := by
        simpa [announcement, Except.map, endEvent, hstart, ho] using h
      exact ⟨n, p, rfl, ho, rfl, rfl, rfl⟩

inductive Works (models : List LanguageModel) (r : ExecuteRequest) (m : Module)
    (inputs : Table Json) : Work → Prop where
  | ready {guard : Guard} : Works models r m inputs (.ready guard m inputs)
  | calling {guard : Guard} {call : Pending} {wake : Nat}
    (h : ∀ moment later, sources later = sources models →
      (call.finish (context r guard) moment later).1 = m.answer models r.traceId inputs) :
    Works models r m inputs (.calling guard call wake)
  | ended : Works models r m inputs (.ended (m.answer models r.traceId inputs))

inductive Follows (c : Compiler) (models : List LanguageModel) (id : Nat) (r : ExecuteRequest) :
    Task → Work → Prop where
  | absent {w : Work} : Follows c models id r .absent w
  | opening {n : Node} {w : Work} (ht : target r = .ok n) : Follows c models id r .opening w
  | compiling {n : Node} {w : Work} {guard : Guard} (ht : target r = .ok n) :
    Follows c models id r (.compiling guard) w
  | parsing {n : Node} {w : Work} {guard : Guard} {m : Module} (ht : target r = .ok n)
    (hm : (c.compile n r.workflow).1 = .ok m) : Follows c models id r (.parsing guard m) w
  | launching {n : Node} {w : Work} {guard : Guard} {m : Module} {inputs : Table Json}
    (ht : target r = .ok n) (hm : (c.compile n r.workflow).1 = .ok m)
    (hi : Field.autoparse n.inputs r.inputs = .ok inputs) :
    Follows c models id r (.launching guard m inputs) w
  | invoking {n : Node} {w : Work} {guard : Guard} {m : Module} {inputs : Table Json}
    (ht : target r = .ok n) (hm : (c.compile n r.workflow).1 = .ok m)
    (hi : Field.autoparse n.inputs r.inputs = .ok inputs) (hw : Works models r m inputs w) :
    Follows c models id r (.invoking guard) w
  | reporting {n : Node} {w : Work} {guard : Guard} (ht : target r = .ok n) :
    Follows c models id r (.reporting guard (outcome c models id r n)) w
  | flushing {n : Node} {w : Work} {guard : Guard} (ht : target r = .ok n) :
    Follows c models id r (.flushing guard (outcome c models id r n)) w
  | settling {n : Node} {w : Work} (ht : target r = .ok n) :
    Follows c models id r (.settling (outcome c models id r n)) w
  | ended {n : Node} {w : Work} {reply : Reply Prediction} (ht : target r = .ok n)
    (h : reply.toExcept (taskPanic id) = outcome c models id r n) :
    Follows c models id r (.ended reply) w

theorem outcome_of_unbuilt {e : Error}
    (h : (c.compile n r.workflow).1.toExcept (taskPanic id) = .error e) :
    outcome c models id r n = .error e := by
  unfold outcome
  rw [h]
  rfl

theorem outcome_of_unparsed {m : Module} {e : Error} (hm : (c.compile n r.workflow).1 = .ok m)
    (hi : Field.autoparse n.inputs r.inputs = .error e) :
    outcome c models id r n = .error e := by
  unfold outcome
  rw [hm, hi]
  rfl

theorem outcome_of_parsed {m : Module} {inputs : Table Json}
    (hm : (c.compile n r.workflow).1 = .ok m)
    (hi : Field.autoparse n.inputs r.inputs = .ok inputs) :
    outcome c models id r n = (m.answer models r.traceId inputs).toExcept (workPanic id) := by
  unfold outcome
  rw [hm, hi]
  rfl

theorem declaredInputs_eq (h : target r = .ok n) : declaredInputs r = n.inputs := by
  unfold declaredInputs
  rw [h]

end

-- A reporter cannot fail an execution, and a tracer answers, with a scope or with an error.
structure Calm (g : Engine) : Prop where
  tracer : ∀ call, g.tracer.panic? call = none
  reporter : ∀ m, g.reporter ≠ .panicking m

theorem calm_bare : Calm .bare where
  tracer _ := rfl
  reporter m := by simp [Engine.bare]

theorem Calm.openPanic?_eq {g : Engine} (h : Calm g) (r : ExecuteRequest) :
    openPanic? g r = none := by
  unfold openPanic?
  split
  · exact h.tracer _
  · rfl

theorem Calm.guardPanic?_eq {g : Engine} (h : Calm g) (guard : Guard) (s : Site)
    (call : TraceOptions → TracerCall) : guard.panic? s g.tracer call = none := by
  unfold Guard.panic?
  simp [h.tracer]

theorem Calm.reportPanic?_eq {g : Engine} (h : Calm g) : reportPanic? g = none := by
  unfold reportPanic?
  split
  · rename_i m hm
    exact absurd hm (h.reporter m)
  · rfl

theorem Calm.of_keepSpan {g : Engine} (hg : Calm g) {id : Nat} {guard : Guard}
    {span : Option Span} {reply last : Reply Prediction} {s s' : Site}
    (h : keepSpan g id guard span reply s = (last, s')) : last = reply := by
  unfold keepSpan at h
  split at h
  · rw [hg.tracer] at h
    cases h
    rfl
  · cases h
    rfl

section

variable {g : Engine} {models : List LanguageModel} {id : Nat} {t t' : Turn}

theorem Follows.task (h : Follows g.compiler models id t.self.request t.self.task t.self.work)
    (hs : TaskSteps g id false t t') (ha : t.self.abandoned = false) (hg : Calm g) :
    Follows g.compiler models id t.self.request t'.self.task t'.self.work := by
  have hrun : stopped false t.self = false := by simp [stopped, ha]
  -- No step of a calm engine panics in its tracer or reporter, and nobody has stopped the task.
  cases hs with
  | absent => exact h
  | ended => exact h
  | openPanicked _ hp => simp [hg.openPanic?_eq] at hp
  | opened hk =>
    rw [hk] at h
    cases h with | opening ht => exact .compiling ht
  | refused hk =>
    rw [hk] at h
    cases h with | opening ht => exact .compiling ht
  | trackPanicked _ hp => simp [hg.guardPanic?_eq] at hp
  | untargeted hk _ ht' =>
    rw [hk] at h
    cases h with | compiling ht => simp [ht] at ht'
  | built hk _ ht' hb =>
    rw [hk] at h
    exact .parsing ht' (by rw [hb])
  | unbuilt hk _ ht' hb =>
    have ho : outcome g.compiler models id t.self.request _ = .error _ :=
      outcome_of_unbuilt (by rw [hb]; rfl)
    exact ho ▸ .reporting ht'
  | buildPanicked hk _ ht' hb =>
    refine .ended ht' ?_
    exact (outcome_of_unbuilt (by rw [hb]; rfl)).symm
  | parsed hk hi =>
    rw [hk] at h
    cases h with
    | parsing ht hm => exact .launching ht hm (declaredInputs_eq ht ▸ hi)
  | unparsed hk hi =>
    rw [hk] at h
    cases h with
    | parsing ht hm =>
      have ho : outcome g.compiler models id t.self.request _ = .error _ :=
        outcome_of_unparsed hm (declaredInputs_eq ht ▸ hi)
      exact ho ▸ .reporting ht
  | launched hk =>
    rw [hk] at h
    cases h with | launching ht hm hi => exact .invoking ht hm hi .ready
  | unlaunched _ hs => simp [hrun] at hs
  | replied hk _ hw =>
    rw [hk, hw] at h
    cases h with
    | invoking ht hm hi hw =>
      cases hw
      exact (outcome_of_parsed hm hi) ▸ .reporting ht
  | unreplied => exact h
  | aborted _ hs => simp [hrun] at hs
  | unreported hk =>
    rw [hk] at h
    cases h with | reporting ht => exact .flushing ht
  | reported hk =>
    rw [hk] at h
    generalize hr : Except.error _ = result at h
    cases h with | reporting ht => exact .flushing ht
  | reportPanicked _ _ _ hp => simp [hg.reportPanic?_eq] at hp
  | flushPanicked _ hp => simp [hg.guardPanic?_eq] at hp
  | flushed hk =>
    rw [hk] at h
    cases h with | flushing ht => exact .settling ht
  | stopped _ hs => simp [hrun] at hs
  | settled hk =>
    rw [hk] at h
    cases h with | settling ht => exact .ended ht (by simp)

theorem Works.step {m : Module} {inputs : Table Json}
    (h : Works models t.self.request m inputs t.self.work) (hs : WorkSteps g id t t')
    (hg : Calm g) (hf : ∀ m ∈ models, m.IsFunction) (hi : m.IgnoresSpans)
    (hm : sources t.site.models = sources models) :
    Works models t.self.request m inputs t'.self.work := by
  cases hs with
  | finished hw hb =>
    rw [hw] at h
    cases h
    have ha : m.answer models t.self.request.traceId inputs = _ := Module.finished_answer hb
    exact ha ▸ .ended
  | called hw hb =>
    rw [hw] at h
    cases h
    exact .calling fun moment later hl => Module.pending_answer hf hi hb hl
  | returned hw _ hfin hk =>
    rw [hw] at h
    cases h with
    | calling h =>
      have hreply := h t.site.moment t.site.models hm
      rw [hfin] at hreply
      exact ((hg.of_keepSpan hk).trans hreply) ▸ .ended
  | waiting => exact h
  | idle => exact h

theorem Follows.work (h : Follows g.compiler models id t.self.request t.self.task t.self.work)
    (hs : WorkSteps g id t t') (hg : Calm g) (hf : ∀ m ∈ models, m.IsFunction)
    (hc : ∀ cls e, g.compiler.evaluators.get? cls = some (.ok e) → e.IgnoresSpans)
    (hm : sources t.site.models = sources models) :
    Follows g.compiler models id t.self.request t'.self.task t'.self.work := by
  have hk : t'.self.task = t.self.task := by rw [hs.self_eq]
  rw [hk]
  generalize t.self.task = task, hw : t.self.work = work at h
  cases h with
  | absent => exact .absent
  | opening ht => exact .opening ht
  | compiling ht => exact .compiling ht
  | parsing ht hm => exact .parsing ht hm
  | launching ht hm hi => exact .launching ht hm hi
  | invoking ht hb hi hw' =>
    exact .invoking ht hb hi
      ((hw ▸ hw').step hs hg hf (Compiler.compile_ignoresSpans hc hb) hm)
  | reporting ht => exact .reporting ht
  | flushing ht => exact .flushing ht
  | settling ht => exact .settling ht
  | ended ht h => exact .ended ht h

theorem Follows.poll {c : Bool} {shown : Polled} {dropped : Prop}
    {whole : List (Except Error Event) → Prop} {items : List (Except Error Event)}
    (h : Follows g.compiler models id t.self.request t.self.task t.self.work)
    (hs : Said t.self.request dropped whole t.self.stage items) (hp : Polls id c t shown t') :
    Follows g.compiler models id t.self.request t'.self.task t'.self.work := by
  cases hp with
  | spawned hk =>
    rw [hk] at hs
    cases hs with | started ht => exact .opening ht
  | exhausted => rwa [close_self]
  | _ => exact h

theorem Said.sequential {shown : Polled} {item : Except Error Event} {dropped : Prop}
    {items : List (Except Error Event)}
    (h : Said t.self.request dropped
      (fun items => ∃ started ended,
        items = sequential g.compiler models id t.self.request started ended)
      t.self.stage items)
    (hf : Follows g.compiler models id t.self.request t.self.task t.self.work)
    (hp : Polls id false t shown t') (hi : shown.item? = some item)
    (ho : t'.self.stage.IsOver) :
    ∃ started ended,
      items ++ [item] = sequential g.compiler models id t.self.request started ended := by
  -- Once the task has ended, only the time of the last item is open.
  have awaited {reply : Reply Prediction} (hs : t.self.stage = .awaiting)
      (hk : t.self.task = .ended reply) : ∃ started, ∀ ended,
      items ++ [(reply.toExcept (taskPanic id)).map fun p => endEvent t.self.request p ended] =
        Execution.sequential g.compiler models id t.self.request started ended := by
    rw [hs] at h
    rw [hk] at hf
    cases h with
    | @awaiting n now =>
      cases hf with
      | ended ht ho => exact ⟨now, fun ended => by rw [sequential_of_ok ht, ← ho]; rfl⟩
  cases hp with
  | refused _ hc => cases hc
  | left _ hc => cases hc
  | halted _ _ hc => cases hc
  | untargeted hs ht =>
    cases hi
    rw [hs] at h
    cases h
    exact ⟨0, 0, (sequential_of_error ht).symm⟩
  | succeeded hs hk =>
    cases hi
    obtain ⟨now, heq⟩ := awaited hs hk
    exact ⟨now, t.site.time, heq _⟩
  | failed hs hk =>
    cases hi
    obtain ⟨now, heq⟩ := awaited hs hk
    exact ⟨now, 0, heq 0⟩
  | panicked hs hk =>
    cases hi
    obtain ⟨now, heq⟩ := awaited hs hk
    exact ⟨now, 0, heq 0⟩
  | _ => simp_all [Stage.IsOver, Polled.item?]

structure Undisturbed (c : Compiler) (models : List LanguageModel) (id : Nat) (x : Execution) :
    Prop where
  abandoned : x.abandoned = false
  follows : Follows c models id x.request x.task x.work

theorem Undisturbed.close (h : Undisturbed g.compiler models id t.self)
    (ho : t.self.stage.IsOver) : Undisturbed g.compiler models id (close id t).self := by
  rw [close_over ho]
  exact ⟨h.abandoned, h.follows⟩

theorem Undisturbed.poll {c : Bool} {shown : Polled} {dropped : Prop}
    {whole : List (Except Error Event) → Prop} {items : List (Except Error Event)}
    (h : Undisturbed g.compiler models id t.self)
    (hs : Said t.self.request dropped whole t.self.stage items) (hp : Polls id c t shown t') :
    Undisturbed g.compiler models id t'.self := by
  have hf := h.follows.poll hs hp
  have ha := h.abandoned
  rw [hp.self_eq] at hf ⊢
  exact ⟨ha, hf⟩

theorem Undisturbed.task (h : Undisturbed g.compiler models id t.self)
    (hs : TaskSteps g id false t t') (hg : Calm g) :
    Undisturbed g.compiler models id t'.self := by
  have hf := h.follows.task hs h.abandoned hg
  have ha := h.abandoned
  rw [hs.self_eq] at hf ⊢
  exact ⟨ha, hf⟩

theorem Undisturbed.work (h : Undisturbed g.compiler models id t.self) (hs : WorkSteps g id t t')
    (hg : Calm g) (hf : ∀ m ∈ models, m.IsFunction)
    (hc : ∀ cls e, g.compiler.evaluators.get? cls = some (.ok e) → e.IgnoresSpans)
    (hm : sources t.site.models = sources models) :
    Undisturbed g.compiler models id t'.self := by
  have hf := h.follows.work hs hg hf hc hm
  have ha := h.abandoned
  rw [hs.self_eq] at hf ⊢
  exact ⟨ha, hf⟩

end

end Execution

namespace Service

open LanguageModel Execution

section

variable {g : Engine} {models : List LanguageModel} {s : Service} {e : Step} {id : Nat}
  {x x' : Served} {dropped : Prop} {whole : List (Except Error Event) → Prop}
  {items : List (Except Error Event)}

end

end Service

end NodeRun
