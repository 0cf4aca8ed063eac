import NodeRun.Proofs.Journal
import NodeRun.Proofs.Sequential

namespace NodeRun

namespace Effect

def asks (i : Nat) : Effect → Bool
  | completionWanted m _ _ => m.index = i
  | _ => false

theorem countP_asks_building {es : List Effect} (h : ∀ e ∈ es, e.isBuilding = true) (i : Nat) :
    es.countP (asks i) = 0 := by
  rw [List.countP_eq_zero]
  intro e he ha
  have hb := h e he
  unfold asks at ha
  split at ha
  · cases hb
  · cases ha

end Effect

namespace LanguageModel

def counting (m : LanguageModel) (n : Nat) : LanguageModel := { m with calls := m.calls + n }

@[simp] theorem counting_zero (m : LanguageModel) : m.counting 0 = m := rfl

theorem counting_add (m : LanguageModel) (n k : Nat) :
    (m.counting n).counting k = m.counting (n + k) := by
  simp [counting, Nat.add_assoc]

theorem cached?_fresh (m : LanguageModel) (r : CompletionRequest) : m.cached? r .fresh = none := by
  unfold cached?
  cases m.source <;> rfl

theorem ask_counting (m : LanguageModel) (r : CompletionRequest) :
    (m.ask r .fresh).2 = m.counting 1 := by
  unfold ask
  rw [cached?_fresh]
  rfl

theorem resolve_fresh (m : LanguageModel) (asked : Asked) (r : CompletionRequest) :
    (m.resolve asked r .fresh).2 = m := by
  unfold resolve
  split
  · rfl
  · unfold answer
    split
    · rfl
    · split <;> rfl

theorem set_atPlace (models : List LanguageModel) (i : Nat) :
    models.set i (atPlace models i) = models := by
  refine List.ext_getElem? ?_
  intro j
  rw [List.getElem?_set]
  split
  · rename_i hij
    subst hij
    split
    · rename_i hi
      simp [atPlace, hi]
    · rename_i hi
      simp [hi]
  · rfl

end LanguageModel

theorem Scope.countP_asks_flush (s : Scope) (t : Tracer) (now : Int64) (i : Nat) :
    (s.flush t now).2.1.countP (Effect.asks i) = 0 := by
  have hb : (s.flushBuffered t now).2.countP (Effect.asks i) = 0 := by
    unfold flushBuffered
    split
    · rfl
    · split <;> rfl
  unfold flush
  split
  · simpa [Effect.asks] using hb
  · rfl

namespace Site

def wanted (s : Site) (i : Nat) : Nat := s.effects.countP (Effect.asks i)

section

variable (s : Site) (t : Tracer) (who : Option Nat) (i : Nat)

@[simp] theorem wanted_emit (es : List Effect) :
    (s.emit who es).wanted i = s.wanted i + es.countP (Effect.asks i) := by
  simp only [wanted, effects, emit, List.map_append, List.countP_append, List.countP_map]
  rfl

@[simp] theorem wanted_openScope (o : TraceOptions) :
    (s.openScope t who o).2.wanted i = s.wanted i := by
  unfold openScope Tracer.openScope
  cases t.opens o with
  | error e => simp [wanted, effects, emit, tick]
  | ok =>
    simp only [wanted_emit]
    unfold Tracer.openEffects
    split <;> simp [wanted, effects, tick, Effect.asks]

@[simp] theorem wanted_record (place : Nat) (x : Span) :
    (s.record t who place x).wanted i = s.wanted i := by
  unfold record
  split
  · simp only [wanted_emit]
    unfold Tracer.record
    split <;> simp [wanted, effects, Effect.asks]
  · rfl

@[simp] theorem wanted_flush (place : Nat) :
    (s.flush t who place).2.wanted i = s.wanted i := by
  unfold flush
  split
  · rename_i scope _
    refine (wanted_emit _ who i _).trans ?_
    rw [scope.countP_asks_flush]
    rfl
  · rfl

end

/-- From `s` to `s'`, the models have counted the completions that were requested of them, and
nothing else about them has changed. -/
def Counts (s s' : Site) : Prop :=
  ∀ ⦃i : Nat⦄ ⦃m : LanguageModel⦄, s.models[i]? = some m →
    ∃ n, s'.wanted i = s.wanted i + n ∧ s'.models[i]? = some (m.counting n)

theorem Counts.of_still {s s' : Site} (hm : s'.models = s.models)
    (hr : ∀ i, s'.wanted i = s.wanted i) : s.Counts s' :=
  fun i m h => ⟨0, hr i, by rw [hm, h]; rfl⟩

theorem Counts.trans {s s' s'' : Site} (h : s.Counts s') (h' : s'.Counts s'') : s.Counts s'' := by
  intro i m hi
  obtain ⟨n, hn, hm⟩ := h hi
  obtain ⟨k, hk, hm'⟩ := h' hm
  exact ⟨n + k, by omega, by rw [hm', LanguageModel.counting_add]⟩

end Site

namespace Guard

@[simp] theorem wanted_openScope (s : Site) (t : Tracer) (who : Option Nat) (wanted : Bool)
    (o : TraceOptions) (i : Nat) : (openScope s t who wanted o).2.wanted i = s.wanted i := by
  unfold openScope
  split <;> simp

@[simp] theorem wanted_finish (guard : Guard) (s : Site) (t : Tracer) (who : Option Nat)
    (i : Nat) : (guard.finish s t who).2.wanted i = s.wanted i := by
  unfold finish
  split
  · rfl
  · rename_i place
    have h := Site.wanted_flush s t who i place
    split
    · rename_i site hf
      simpa [hf] using h
    · rename_i e site hf
      simpa [hf, Effect.asks] using h

end Guard

theorem Invocation.begin_counts {c : InvocationContext} (hc : c.settings = .fresh) {mo : Moment}
    {models after : List LanguageModel} {module : Module} {inputs : Table Json} {begun : Begun}
    {es : List Effect} (h : Invocation.begin c mo models module inputs = (begun, after, es))
    {i : Nat} {m : LanguageModel} (hi : models[i]? = some m) :
    after[i]? = some (m.counting (es.countP (Effect.asks i))) := by
  have still (hes : es.countP (Effect.asks i) = 0) (ha : after = models) :
      after[i]? = some (m.counting (es.countP (Effect.asks i))) := by
    rw [hes, ha, hi]
    rfl
  cases module with
  | terminal =>
    cases h
    exact still rfl rfl
  | hosted v =>
    cases h
    exact still rfl rfl
  | evaluator v =>
    cases h
    exact still rfl rfl
  | contexts r =>
    simp only [Invocation.begin] at h
    cases hq : ContextsRetriever.query inputs with
    | error e =>
      rw [hq] at h
      cases h
      exact still rfl rfl
    | ok q =>
      rw [hq] at h
      cases h
      exact still rfl rfl
  | predict p =>
    -- A fresh invocation asks for no cached answer, and so the request reaches the model.
    have ha := congrArg (fun b => b.2.1) h
    have he := congrArg (fun b => b.2.2) h
    simp only [Invocation.begin, hc, LanguageModel.ask_counting] at ha he
    rw [← ha, ← he, List.getElem?_set]
    by_cases hp : p.model.index = i
    · have hlt : i < models.length := (List.getElem?_eq_some_iff.mp hi).1
      have hm : LanguageModel.atPlace models i = m := by simp [LanguageModel.atPlace, hi]
      simp [hp, hm, hlt, Effect.asks]
    · simp [hp, hi, Effect.asks]

theorem Pending.finish_models {c : InvocationContext} (hc : c.settings = .fresh) (mo : Moment)
    (models : List LanguageModel) (call : Pending) : (call.finish c mo models).2.2 = models := by
  cases call with
  | completion p request asked span =>
    simp only [finish, hc, LanguageModel.resolve_fresh, LanguageModel.set_atPlace]
  | _ => rfl

namespace Execution

section

variable {g : Engine} {id : Nat} {c : Bool} {t t' : Turn} {shown : Polled}

theorem wanted_of_keepSpan {guard : Guard} {span : Option Span} {reply last : Reply Prediction}
    {s s' : Site} (h : keepSpan g id guard span reply s = (last, s')) (i : Nat) :
    s'.wanted i = s.wanted i := by
  unfold keepSpan at h
  split at h
  · split at h
    · cases h
      rfl
    · cases h
      simp
  · cases h
    rfl

theorem Polls.counts (h : Polls id c t shown t') : t.site.Counts t'.site := by
  refine .of_still h.models_eq fun i => ?_
  cases h with
  | admitted => exact Site.wanted_emit t.site (some id) i [.note .executing]
  | granted => exact Site.wanted_emit t.site (some id) i [.note .executing]
  | succeeded => exact Site.wanted_emit t.site (some id) i [.note .executed]
  | exhausted => rw [close_site]
  | _ => rfl

theorem TaskSteps.counts (h : TaskSteps g id c t t') : t.site.Counts t'.site := by
  refine .of_still h.models_eq fun i => ?_
  have built {n : Node} {reply : Reply Module} {es : List Effect}
      (hb : g.compiler.compile n t.self.request.workflow = (reply, es)) :
      (t.site.emit (some id) es).wanted i = t.site.wanted i := by
    have he := Effect.countP_asks_building (g.compiler.compile_building n t.self.request.workflow) i
    rw [hb] at he
    rw [Site.wanted_emit, he]
    rfl
  have reported (e : Error) :
      (t.site.emit (some id) (reportEffects g e t.self.request)).wanted i =
        t.site.wanted i := by
    rw [Site.wanted_emit]
    unfold reportEffects
    split <;> rfl
  cases h with
  | opened _ _ ho =>
    have hr := Guard.wanted_openScope t.site g.tracer (some id)
      t.self.request.workflow.enableTracing (traceOptions g.config t.self.request) i
    rwa [ho] at hr
  | refused _ _ ho =>
    have hr := Guard.wanted_openScope t.site g.tracer (some id)
      t.self.request.workflow.enableTracing (traceOptions g.config t.self.request) i
    rw [ho] at hr
    exact (Site.wanted_emit _ (some id) i [.note .scopeRefused]).trans hr
  | built _ _ _ hb => exact built hb
  | unbuilt _ _ _ hb => exact built hb
  | buildPanicked _ _ _ hb => exact built hb
  | reported => exact reported _
  | reportPanicked => exact reported _
  | flushed => exact Guard.wanted_finish _ t.site g.tracer (some id) i
  | stopped => exact Site.wanted_emit t.site (some id) i [.note .stopped]
  | _ => rfl

theorem WorkSteps.counts (h : WorkSteps g id t t') : t.site.Counts t'.site := by
  have begun {guard m inputs begun models es}
      (hb : Invocation.begin (context t.self.request guard) t.site.moment t.site.models m inputs =
        (begun, models, es)) :
      t.site.Counts (({ t.site with models := models } : Site).tick.emit (some id)
        (.forwardStarted inputs :: es)) :=
    fun i m hi => ⟨es.countP (Effect.asks i),
      (Site.wanted_emit _ _ _ _).trans (by rw [List.countP_cons]; rfl),
      Invocation.begin_counts rfl hb hi⟩
  cases h with
  | finished _ hb => exact begun hb
  | called _ hb => exact begun hb
  | @returned guard call _ _ _ _ _ _ _ _ hf hk =>
    refine .of_still ?_ fun i => wanted_of_keepSpan hk i
    have hm := call.finish_models (c := context t.self.request guard) rfl t.site.moment
      t.site.models
    rw [hf] at hm
    exact (models_of_keepSpan hk).trans hm
  | waiting => exact .of_still rfl fun _ => rfl
  | idle => exact .of_still rfl fun _ => rfl

end

end Execution

namespace Service

open Execution

theorem Feeds.counts {s s' : Service} {id : Nat} {x x' : Served} {shown : Polled}
    (h : Feeds s id x shown x' s') : s.site.Counts s'.site := by
  refine h.keeps (P := fun _ site => s.site.Counts site) ?_ ?_ (.of_still rfl fun _ => rfl)
  · intro shown t hp
    exact hp.counts
  · intro t _ ht
    rwa [close_site]

theorem wanted_register (s : Service) (r : ExecuteRequest) (i : Nat) :
    (s.register r).site.wanted i = s.site.wanted i := by
  unfold register
  cases s.running.get? r.traceId with
  | none => rfl
  | some p => simp [Effect.asks]

theorem wanted_stop (s : Service) (r : StopRequest) (i : Nat) :
    (s.stop r).site.wanted i = s.site.wanted i := by
  unfold stop
  split <;> simp [Effect.asks]

theorem wanted_handle (s : Service) (c : Command) (i : Nat) :
    (s.handle c).2.site.wanted i = s.site.wanted i := by
  have received : (s.note .eventReceived).site.wanted i = s.site.wanted i := by
    simp [Effect.asks]
  cases c with
  | isAlive => exact received
  | execute r => exact (wanted_register _ r i).trans received
  | stop r => exact (wanted_stop _ r i).trans received

theorem models_handle (s : Service) (c : Command) : (s.handle c).2.site.models = s.site.models := by
  cases c with
  | isAlive => rfl
  | execute r => exact register_models _ r
  | stop r => exact stop_models _ r

theorem counts_act (s : Service) (e : Step) : s.site.Counts (s.act e).site := by
  have still {s' : Service} (h : s'.site = s.site) : s.site.Counts s'.site :=
    .of_still (by rw [h]) fun _ => by rw [h]
  unfold act
  cases ha : e.action with
  | handle c => exact .of_still (models_handle s c) (wanted_handle s c)
  | launch r b => exact still rfl
  | cancel i => exact still (cancelLaunched_site s i)
  | drop i => exact still (drop_site s i)
  | wait now => exact .of_still rfl fun _ => rfl
  | poll i =>
    cases hx : s.served[i]? with
    | none => exact still (by simp [poll, hx])
    | some x =>
      obtain ⟨x', hp⟩ := feeds_poll hx
      exact hp.counts
  | task i =>
    cases hx : s.served[i]? with
    | none => exact still (by simp [stepTask, hx])
    | some x =>
      have hs := (taskSteps_stepTask e.engine i x.cancelled (s.turn x)).counts
      simpa [stepTask, hx] using hs
  | work i =>
    cases hx : s.served[i]? with
    | none => exact still (by simp [stepWork, hx])
    | some x =>
      have hs := (workSteps_stepWork e.engine i (s.turn x)).counts
      simpa [stepWork, hx] using hs

theorem counts_run (s : Service) (es : List Step) : s.site.Counts (s.run es).site := by
  induction es generalizing s with
  | nil => exact .of_still rfl fun _ => rfl
  | cons e es ih => exact (counts_act s e).trans (ih (s.act e))

theorem wanted_start (g : Engine) (models : List LanguageModel) (i : Nat) :
    (start g models).site.wanted i = 0 := by
  unfold start startNotices
  split <;> rfl

/-- Whatever the models have counted and kept before, a run leaves each of them as it was but for
the number of completions that were requested of it. -/
theorem models_run (g : Engine) (models : List LanguageModel) (es : List Step) {i : Nat}
    {m : LanguageModel} (hi : models[i]? = some m) :
    ((start g models).run es).site.models[i]? =
      some (m.counting (((start g models).run es).site.wanted i)) := by
  obtain ⟨n, hn, hm⟩ := counts_run (start g models) es (i := i) (m := m) hi
  rw [hm, hn, wanted_start, Nat.zero_add]

end Service

end NodeRun
