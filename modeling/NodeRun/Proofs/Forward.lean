import NodeRun.Module.Forward
import NodeRun.Proofs.Compilation

namespace NodeRun

namespace LanguageModel

def IsFunction (m : LanguageModel) : Prop :=
  match m.source with
  | .canned _ => True
  | .scripted c => ∀ i j r s, c.reply i r s = c.reply j r s

def sources (models : List LanguageModel) : List ModelSource := models.map source

theorem atPlace_source (models : List LanguageModel) (i : Nat) :
    (atPlace models i).source = (sources models)[i]?.getD (.canned (.named "")) := by
  unfold atPlace sources
  rw [List.getElem?_map]
  cases models[i]? <;> rfl

theorem atPlace_isFunction {models : List LanguageModel} (h : ∀ m ∈ models, m.IsFunction)
    (i : Nat) : (atPlace models i).IsFunction := by
  unfold atPlace
  cases hm : models[i]? with
  | none => trivial
  | some m => exact h m (List.mem_of_getElem? hm)

theorem sources_set {models : List LanguageModel} {i : Nat} {m : LanguageModel}
    (h : m.source = (atPlace models i).source) : sources (models.set i m) = sources models := by
  refine List.ext_getElem? ?_
  intro j
  simp only [sources, List.getElem?_map, List.getElem?_set]
  split
  · rename_i hij
    subst hij
    split
    · rename_i hi
      simp [h, atPlace, hi]
    · rename_i hi
      simp [hi]
  · rfl

@[simp] theorem ask_source (m : LanguageModel) (r : CompletionRequest) (s : InvocationSettings) :
    (m.ask r s).2.source = m.source := by
  unfold ask
  split <;> rfl

@[simp] theorem answer_source (m : LanguageModel) (i : Nat) (r : CompletionRequest)
    (s : InvocationSettings) : (m.answer i r s).2.source = m.source := by
  unfold answer
  split
  · rfl
  · split
    · rfl
    · simp only
      split <;> rfl

@[simp] theorem resolve_source (m : LanguageModel) (asked : Asked) (r : CompletionRequest)
    (s : InvocationSettings) : (m.resolve asked r s).2.source = m.source := by
  unfold resolve
  split
  · rfl
  · simp

theorem ask_fresh (m : LanguageModel) (r : CompletionRequest) :
    (m.ask r .fresh).1 = .waiting m.delay m.calls := by
  unfold ask cached?
  cases m.source <;> rfl

theorem answer_eq {m m' : LanguageModel} (hs : m'.source = m.source) (hf : m.IsFunction)
    (i j : Nat) (r : CompletionRequest) (s : InvocationSettings) :
    (m'.answer j r s).1 = (m.answer i r s).1 := by
  unfold answer
  unfold IsFunction at hf
  rw [hs]
  cases hm : m.source with
  | scripted c =>
    rw [hm] at hf
    exact hf j i r s
  | canned c => cases hc : c.failure <;> simp [hc]

end LanguageModel

def LocalEvaluator.IgnoresSpans (e : LocalEvaluator) : Prop :=
  ∀ c b inputs, e.reply { c with tracing := b } inputs = e.reply c inputs

namespace Module

def IgnoresSpans : Module → Prop
  | evaluator e => e.IgnoresSpans
  | _ => True

end Module

namespace Compiler

theorem Asks.ignoresSpans {c : Compiler} {w : Workflow} {k : NodeKind} {call : Effect}
    {reply : Reply Module} {m : Module}
    (hc : ∀ cls e, c.evaluators.get? cls = some (.ok e) → e.IgnoresSpans)
    (h : c.Asks w k call reply) (hm : reply = .ok m) : m.IgnoresSpans := by
  cases h with
  | provider =>
    obtain ⟨model, -, rfl⟩ := Reply.map_eq_ok_iff.mp hm
    trivial
  | factory =>
    obtain ⟨b, -, rfl⟩ := Reply.map_eq_ok_iff.mp hm
    trivial
  | constructor hn hh hb =>
    obtain ⟨e, rfl, rfl⟩ := Reply.map_eq_ok_iff.mp hm
    exact hc _ e hb

theorem Makes.ignoresSpans {c : Compiler} {w : Workflow} {k : NodeKind} {m : Module}
    (h : c.Makes w k m) : m.IgnoresSpans := by
  cases h <;> trivial

theorem compile_ignoresSpans {c : Compiler}
    (hc : ∀ cls e, c.evaluators.get? cls = some (.ok e) → e.IgnoresSpans) {n : Node}
    {w : Workflow} {m : Module} (h : (c.compile n w).1 = .ok m) : m.IgnoresSpans := by
  rcases (c.compiles w n.kind).calls_of_ok h with ⟨-, hmakes⟩ | ⟨call, -, hasks⟩
  · exact hmakes.ignoresSpans
  · exact hasks.ignoresSpans hc rfl

end Compiler

namespace Pending

theorem settle_eq {α β γ : Type} (reply : Reply α)
    {f : Except Error α → Except Error Prediction × Option β}
    {f' : Except Error α → Except Error Prediction × Option γ}
    (h : ∀ x, (f x).1 = (f' x).1) : (settle reply f).1 = (settle reply f').1 := by
  cases reply with
  | ok x => simp [settle, h]
  | error e => simp [settle, h]
  | panic m => rfl

theorem finish_sources (call : Pending) (c : InvocationContext) (m : Moment)
    (models : List LanguageModel) :
    LanguageModel.sources (call.finish c m models).2.2 = LanguageModel.sources models := by
  cases call with
  | completion p request asked span =>
    exact LanguageModel.sources_set (LanguageModel.resolve_source _ _ _ _)
  | _ => rfl

end Pending

namespace Module

open LanguageModel Pending

theorem begin_sources (c : InvocationContext) (m : Moment) (models : List LanguageModel)
    (module : Module) (inputs : Table Json) :
    sources (Invocation.begin c m models module inputs).2.1 = sources models := by
  unfold Invocation.begin
  cases module with
  | predict p => exact sources_set (ask_source _ _ _)
  | contexts r => cases ContextsRetriever.query inputs <;> rfl
  | _ => rfl

theorem sources_of_begin {c : InvocationContext} {m : Moment} {models after : List LanguageModel}
    {module : Module} {inputs : Table Json} {begun : Begun} {es : List Effect}
    (h : Invocation.begin c m models module inputs = (begun, after, es)) :
    sources after = sources models := by
  have hs := begin_sources c m models module inputs
  rwa [h] at hs

theorem sources_of_finish {c : InvocationContext} {m : Moment} {models after : List LanguageModel}
    {call : Pending} {reply : Reply Prediction} {span : Option Span}
    (h : call.finish c m models = (reply, span, after)) : sources after = sources models := by
  have hs := finish_sources call c m models
  rwa [h] at hs

def answer (models : List LanguageModel) (trace : String) (module : Module)
    (inputs : Table Json) : Reply Prediction :=
  (module.forward ⟨trace, .fresh, false⟩ ⟨0, 0⟩ models inputs).result

theorem begin_predict (models : List LanguageModel) (trace : String) (tracing : Bool) (m : Moment)
    (p : Predict) (inputs : Table Json) :
    ∃ delay call span after es,
      Invocation.begin ⟨trace, .fresh, tracing⟩ m models (.predict p) inputs =
        (.pending (.completion p (p.request inputs) (.waiting delay call) span), after, es) ∧
      sources after = sources models := by
  have hasked := ask_fresh (atPlace models p.model.index) (p.request inputs)
  rcases ha : (atPlace models p.model.index).ask (p.request inputs) .fresh with ⟨asked, model⟩
  have hb : ∃ span es, Invocation.begin ⟨trace, .fresh, tracing⟩ m models (.predict p) inputs =
      (.pending (.completion p (p.request inputs) asked span),
        models.set p.model.index model, es) := by
    simp only [Invocation.begin, ha]
    exact ⟨_, _, rfl⟩
  obtain ⟨span, es, hb⟩ := hb
  rw [ha] at hasked
  subst hasked
  exact ⟨_, _, span, _, es, hb, sources_of_begin hb⟩

theorem finish_waiting {models after later : List LanguageModel}
    (hf : ∀ m ∈ models, m.IsFunction) (ha : sources after = sources models)
    (hl : sources later = sources models) (p : Predict) (request : CompletionRequest)
    {c c' : InvocationContext} (hc : c'.settings = c.settings) {m m' : Moment}
    (delay delay' : Nat) {call call' : Nat} {span span' : Option Span} :
    ((Pending.completion p request (.waiting delay' call') span').finish c' m' later).1 =
      ((Pending.completion p request (.waiting delay call) span).finish c m after).1 := by
  have source {models'} (h : sources models' = sources models) :
      (atPlace models' p.model.index).source = (atPlace models p.model.index).source := by
    rw [atPlace_source, atPlace_source, h]
  have hf := atPlace_isFunction hf p.model.index
  have hreply := (answer_eq (source hl) hf 0 call' request c.settings).trans
    (answer_eq (source ha) hf 0 call request c.settings).symm
  simp only [finish, resolve, hc, hreply]
  exact settle_eq _ fun _ => rfl

theorem answer_finished {models after : List LanguageModel} {trace : String} {module : Module}
    {inputs : Table Json} {result : Except Error Prediction} {es : List Effect}
    (h : Invocation.begin ⟨trace, .fresh, false⟩ ⟨0, 0⟩ models module inputs =
      (.finished result, after, es)) :
    module.answer models trace inputs = .ofExcept result := by
  unfold answer forward
  rw [h]

theorem answer_pending {models after : List LanguageModel} {trace : String} {module : Module}
    {inputs : Table Json} {call : Pending} {es : List Effect}
    (h : Invocation.begin ⟨trace, .fresh, false⟩ ⟨0, 0⟩ models module inputs =
      (.pending call, after, es)) :
    module.answer models trace inputs =
      (call.finish ⟨trace, .fresh, false⟩ (Moment.after ⟨0, 0⟩ call.delay) after).1 := by
  unfold answer forward
  rw [h]

section

variable {models models' after later : List LanguageModel} {trace : String} {module : Module}
  {inputs : Table Json} {tracing : Bool} {moment moment' : Moment} {es : List Effect}

theorem finished_answer {result : Except Error Prediction}
    (h : Invocation.begin ⟨trace, .fresh, tracing⟩ moment models' module inputs =
      (.finished result, after, es)) :
    module.answer models trace inputs = .ofExcept result := by
  cases module with
  | terminal =>
    cases h
    rfl
  | contexts r =>
    simp only [Invocation.begin] at h
    cases hq : ContextsRetriever.query inputs with
    | error e =>
      have hb : Invocation.begin ⟨trace, .fresh, false⟩ ⟨0, 0⟩ models (.contexts r) inputs =
          (.finished (.error e), models, []) := by
        simp only [Invocation.begin, hq]
      rw [hq] at h
      cases h
      exact answer_finished hb
    | ok q =>
      rw [hq] at h
      cases h
  | _ => cases h

theorem pending_answer (hf : ∀ m ∈ models, m.IsFunction) (hi : module.IgnoresSpans)
    {call : Pending}
    (h : Invocation.begin ⟨trace, .fresh, tracing⟩ moment models' module inputs =
      (.pending call, after, es))
    (hl : sources later = sources models) :
    (call.finish ⟨trace, .fresh, tracing⟩ moment' later).1 =
      module.answer models trace inputs := by
  -- `answer` begins the same call without a span, and no reply depends on the span.
  cases module with
  | terminal => cases h
  | contexts r =>
    simp only [Invocation.begin] at h
    cases hq : ContextsRetriever.query inputs with
    | error e =>
      rw [hq] at h
      cases h
    | ok q =>
      have hb : Invocation.begin ⟨trace, .fresh, false⟩ ⟨0, 0⟩ models (.contexts r) inputs =
          (.pending (.passages r q), models,
            [.passagesWanted r.backend.recorded q r.k .fresh]) := by
        simp only [Invocation.begin, hq]
      rw [hq] at h
      cases h
      rw [answer_pending hb]
      simp only [finish]
      exact settle_eq _ fun _ => rfl
  | hosted d =>
    have hb : Invocation.begin ⟨trace, .fresh, false⟩ ⟨0, 0⟩ models (.hosted d) inputs =
        (.pending (.hosted d (d.request inputs) none), models,
          [.hostedWanted (d.request inputs) d.apiKey]) := rfl
    cases h
    rw [answer_pending hb]
    simp only [finish]
    exact settle_eq _ fun _ => rfl
  | evaluator v =>
    have hb : Invocation.begin ⟨trace, .fresh, false⟩ ⟨0, 0⟩ models (.evaluator v) inputs =
        (.pending (.evaluator v inputs), models,
          [.localWanted v.recorded ⟨trace, .fresh, false⟩ inputs]) := rfl
    cases h
    rw [answer_pending hb]
    exact hi ⟨trace, .fresh, false⟩ tracing inputs
  | predict p =>
    obtain ⟨d, n, span, _, _, hb, hs⟩ := begin_predict models trace false ⟨0, 0⟩ p inputs
    obtain ⟨d', n', span', after', es', hb', -⟩ :=
      begin_predict models' trace tracing moment p inputs
    rw [hb'] at h
    cases h
    rw [answer_pending hb]
    exact finish_waiting hf hs hl p (p.request inputs) rfl d d'

end

end Module

end NodeRun
