import NodeRun.Proofs.Forward

namespace NodeRun

inductive Module.IsTraced : Module → Prop
  | predict (p : Predict) : IsTraced (.predict p)
  | contexts (r : ContextsRetriever) : IsTraced (.contexts r)
  | hosted (h : HostedEvaluator) : IsTraced (.hosted h)

namespace Span

def Shows (s : Span) (p : Prediction) : Module → Prop
  | .contexts _ =>
    ∃ cs, s.contexts = some cs ∧ p.outputs = Table.empty.insert "contexts" (.arr cs)
  | _ => s.output = some (.ofTable p.outputs)

structure Opened (module : Module) (start : Moment) (s : Span) : Prop where
  name : s.name = some module.name
  error : s.error = none
  id : s.id = start.spanId
  times : s.timestamps = ⟨start.now, none⟩

structure Tells (module : Module) (start stop : Moment) (result : Except Error Prediction)
    (s : Span) : Prop where
  finished : s.isFinished = true
  name : s.name = some module.name
  failed : ∀ e, result = .error e → s.error = some e.message
  succeeded : ∀ p, result = .ok p → s.error = none ∧ s.Shows p module
  began : s.timestamps.startedAt = start.now ∧ s.id = start.spanId
  ended : s.timestamps.finishedAt = some stop.now

variable {module : Module} {start stop : Moment} {s : Span}

theorem Opened.finish_eq (h : Opened module start s) (now : Int64) :
    s.finish now = { s with timestamps := ⟨start.now, some now⟩ } := by
  simp [finish, isFinished, h.times]

theorem Opened.tells_close {α : Type} {onOk : α → Span → Span} {f : α → Prediction}
    (h : Opened module start s)
    (hok : ∀ x, Opened module start (onOk x s) ∧ (onOk x s).Shows (f x) module)
    (result : Except Error α) :
    (Invocation.close stop.now onOk result s).Tells module start stop (result.map f) := by
  cases result with
  | ok x =>
    obtain ⟨hopen, hshows⟩ := hok x
    have hclose : Invocation.close stop.now onOk (.ok x) s =
        { onOk x s with timestamps := ⟨start.now, some stop.now⟩ } := hopen.finish_eq _
    rw [hclose]
    refine ⟨rfl, hopen.name, ?_, ?_, ⟨rfl, hopen.id⟩, rfl⟩
    · intro e he
      cases he
    · intro p hp
      cases hp
      refine ⟨hopen.error, ?_⟩
      cases module <;> exact hshows
  | error e =>
    have hopen : s.timestamps = ⟨start.now, none⟩ := h.times
    have hclose : Invocation.close stop.now onOk (.error e) s =
        { s with error := some e.message, timestamps := ⟨start.now, some stop.now⟩ } := by
      simp [Invocation.close, finish, isFinished, hopen]
    rw [hclose]
    refine ⟨rfl, h.name, ?_, ?_, ⟨rfl, h.id⟩, rfl⟩
    · intro e' he
      cases he
      rfl
    · intro p hp
      cases hp

end Span

def Forwarded.sink (f : Forwarded) (c : InvocationContext) (kept : List Span) : List Span :=
  f.span.elim kept (c.record kept)

namespace Module

/-- A run that makes its call at one moment and has the reply at another. Others may use the models
in between. -/
def forwardAt (c : InvocationContext) (asked answered : Moment) (models later : List LanguageModel)
    (module : Module) (inputs : Table Json) : Forwarded :=
  match Invocation.begin c asked models module inputs with
  | (.finished result, models, es) => ⟨.ofExcept result, none, models, es, asked.after 0⟩
  | (.pending call, _, es) =>
    let (result, span, models) := call.finish c answered later
    ⟨result, span, models, es, answered.after 0⟩

theorem forward_eq_forwardAt (c : InvocationContext) (m : Moment) (models : List LanguageModel)
    (module : Module) (inputs : Table Json) :
    ∃ answered later,
      module.forward c m models inputs = module.forwardAt c m answered models later inputs := by
  cases hb : Invocation.begin c m models module inputs with
  | mk begun rest =>
    cases begun with
    | finished result => exact ⟨m, models, by simp [forward, forwardAt, hb]⟩
    | pending call =>
      exact ⟨m.after call.delay, rest.1, by simp [forward, forwardAt, hb]⟩

/-- The moment at which the span of a run is begun. -/
def opening (asked answered : Moment) : Module → Moment
  | .contexts _ => answered
  | _ => asked

end Module

namespace Pending

open Invocation

variable {module : Module} {start stop : Moment}

def Told (module : Module) (start stop : Moment)
    (x : Except Error Prediction × Option Span) : Prop :=
  ∃ s, x.2 = some s ∧ s.Tells module start stop x.1

theorem told_finishPredict {p : Predict} {s : Span} (h : s.Opened (.predict p) start)
    (reply : Except Error Completion) :
    Told (.predict p) start stop (finishPredict stop p (some s) reply) := by
  let onOk (x : Table Json × TokenUsage) (s : Span) : Span :=
    { s with output := some (.ofTable x.1), metrics := some x.2 }
  have hok (x) : (onOk x s).Opened (.predict p) start ∧
      (onOk x s).Shows (ofUsage x.1 x.2) (.predict p) :=
    ⟨⟨h.name, h.error, h.id, h.times⟩, rfl⟩
  exact ⟨_, rfl, h.tells_close hok (reply.bind p.read)⟩

theorem told_finishHosted {d : HostedEvaluator} {s : Span} (h : s.Opened (.hosted d) start)
    (reply : Except Error EvaluationResult) :
    Told (.hosted d) start stop (finishHosted stop d (some s) reply) := by
  let onOk (r : EvaluationResult) (s : Span) : Span :=
    { s with output := some (.ofTable r.outputs), metrics := costMetrics r }
  have hok (r) : (onOk r s).Opened (.hosted d) start ∧
      (onOk r s).Shows ⟨r.outputs, r.cost.map Money.amount⟩ (.hosted d) :=
    ⟨⟨h.name, h.error, h.id, h.times⟩, rfl⟩
  exact ⟨_, rfl, h.tells_close hok (reply.bind d.read)⟩

theorem told_finishContexts {c : InvocationContext} (hc : c.tracing = true)
    (r : ContextsRetriever) (query : String) (reply : Except Error (List Passage)) :
    Told (.contexts r) stop stop (finishContexts c stop r query reply) := by
  -- The span is made after the call, so the moment of the reply is its start as well.
  have hopen : Span.Opened (.contexts r) stop
      { stop.startSpan .rag r.name with input := some (.str query) } := ⟨rfl, rfl, rfl, rfl⟩
  refine ⟨_, if_pos hc, hopen.tells_close (fun ps => ⟨?_, ?_⟩) reply⟩
  · exact ⟨hopen.name, hopen.error, hopen.id, hopen.times⟩
  · exact ⟨_, rfl, rfl⟩

theorem settle_told {α : Type}
    {f : Except Error α → Except Error Prediction × Option Span}
    (hf : ∀ x, Told module start stop (f x)) (reply : Reply α) :
    (∃ m, settle reply f = (.panic m, none)) ∨
      ∃ result s, settle reply f = (.ofExcept result, some s) ∧
        s.Tells module start stop result := by
  cases reply with
  | ok x =>
    obtain ⟨s, hs, htells⟩ := hf (.ok x)
    exact .inr ⟨_, s, by simp only [settle, hs], htells⟩
  | error e =>
    obtain ⟨s, hs, htells⟩ := hf (.error e)
    exact .inr ⟨_, s, by simp only [settle, hs], htells⟩
  | panic m => exact .inl ⟨m, rfl⟩

theorem settle_untold {α : Type}
    {f : Except Error α → Except Error Prediction × Option Span} (hf : ∀ x, (f x).2 = none)
    (reply : Reply α) : (settle reply f).2 = none := by
  cases reply with
  | ok x => exact hf _
  | error e => exact hf _
  | panic m => rfl

end Pending

namespace Module

open Invocation Pending

variable {c : InvocationContext} {asked answered : Moment} {models later : List LanguageModel}
  {module : Module} {inputs : Table Json}

def promptSpan (c : InvocationContext) (m : Moment) (p : Predict) (inputs : Table Json) :
    Option Span :=
  (spanIf c m .llm p.schema.name inputs).map (fun s => { s with model := some p.model.name })

theorem promptSpan_eq (hc : c.tracing = true) (m : Moment) (p : Predict) (inputs : Table Json) :
    promptSpan c m p inputs =
      some { m.startSpan .llm p.schema.name with
        input := some (.ofTable inputs), model := some p.model.name } := by
  rw [promptSpan, spanIf, if_pos hc]
  rfl

def Ends (f : Forwarded) (x : Reply Prediction × Option Span) : Prop :=
  f.effects.length = 1 ∧ (f.result, f.span) = x

section Calls

variable (c asked answered models later inputs)

theorem forwardAt_predict (p : Predict) :
    ∃ reply, Ends (forwardAt c asked answered models later (.predict p) inputs)
      (settle reply (finishPredict answered p (promptSpan c asked p inputs))) :=
  ⟨_, rfl, rfl⟩

theorem forwardAt_hosted (d : HostedEvaluator) :
    ∃ reply, Ends (forwardAt c asked answered models later (.hosted d) inputs)
      (settle reply (finishHosted answered d (spanIf c asked .evaluation d.name inputs))) :=
  ⟨_, rfl, rfl⟩

theorem forwardAt_contexts {q : String} (hq : ContextsRetriever.query inputs = .ok q)
    (r : ContextsRetriever) :
    Ends (forwardAt c asked answered models later (.contexts r) inputs)
      (settle (r.backend.reply q r.k c.settings) (finishContexts c answered r q)) := by
  simp only [forwardAt, Invocation.begin, hq, finish]
  exact ⟨rfl, rfl⟩

theorem forwardAt_unasked {e : Error} (he : ContextsRetriever.query inputs = .error e)
    (r : ContextsRetriever) :
    forwardAt c asked answered models later (.contexts r) inputs =
      ⟨.error e, none, models, [], asked.after 0⟩ := by
  simp only [forwardAt, Invocation.begin, he, Reply.ofExcept]

end Calls

theorem effects_forwardAt (h : module.IsTraced) :
    (module.forwardAt c asked answered models later inputs).effects = [] ↔
      ∃ r e, module = .contexts r ∧ ContextsRetriever.query inputs = .error e ∧
        (module.forwardAt c asked answered models later inputs).result = .error e := by
  have hcalled {f : Forwarded} {x} (hf : Ends f x) : f.effects ≠ [] := by
    intro hnil
    have hone := hf.1
    rw [hnil] at hone
    cases hone
  cases h with
  | predict p =>
    obtain ⟨reply, hends⟩ := forwardAt_predict c asked answered models later inputs p
    exact ⟨fun hnil => absurd hnil (hcalled hends), nofun⟩
  | hosted d =>
    obtain ⟨reply, hends⟩ := forwardAt_hosted c asked answered models later inputs d
    exact ⟨fun hnil => absurd hnil (hcalled hends), nofun⟩
  | contexts r =>
    cases hq : ContextsRetriever.query inputs with
    | error e =>
      rw [forwardAt_unasked c asked answered models later inputs hq r]
      exact ⟨fun _ => ⟨r, e, rfl, rfl, rfl⟩, fun _ => rfl⟩
    | ok q =>
      have hends := forwardAt_contexts c asked answered models later inputs hq r
      exact ⟨fun hnil => absurd hnil (hcalled hends), nofun⟩

theorem span_of_ends {f : Forwarded} {x : Reply Prediction × Option Span} (h : Ends f x)
    (hx : x.2 = none) : f.span = none := by
  rw [← hx, ← h.2]

theorem span_forwardAt_untraced (h : module.IsTraced) (hc : c.tracing = false) :
    (module.forwardAt c asked answered models later inputs).span = none := by
  have hnone (type : SpanType) (name : String) : spanIf c asked type name inputs = none :=
    if_neg (by simp [hc])
  cases h with
  | predict p =>
    obtain ⟨reply, hends⟩ := forwardAt_predict c asked answered models later inputs p
    rw [promptSpan, hnone] at hends
    exact span_of_ends hends (settle_untold (fun x => rfl) reply)
  | hosted d =>
    obtain ⟨reply, hends⟩ := forwardAt_hosted c asked answered models later inputs d
    rw [hnone] at hends
    exact span_of_ends hends (settle_untold (fun x => rfl) reply)
  | contexts r =>
    cases hq : ContextsRetriever.query inputs with
    | error e => rw [forwardAt_unasked c asked answered models later inputs hq r]
    | ok q =>
      have hends := forwardAt_contexts c asked answered models later inputs hq r
      exact span_of_ends hends (settle_untold (fun x => by simp [finishContexts, hc]) _)

theorem span_forwardAt (h : module.IsTraced) (hc : c.tracing = true)
    (he : (module.forwardAt c asked answered models later inputs).effects ≠ []) :
    let f := module.forwardAt c asked answered models later inputs
    (∃ m, (f.result, f.span) = (.panic m, none)) ∨
      ∃ result s, (f.result, f.span) = (.ofExcept result, some s) ∧
        s.Tells module (module.opening asked answered) answered result := by
  cases h with
  | predict p =>
    obtain ⟨reply, -, hends⟩ := forwardAt_predict c asked answered models later inputs p
    rw [promptSpan_eq hc] at hends
    simp only [hends]
    exact settle_told (told_finishPredict ⟨rfl, rfl, rfl, rfl⟩) reply
  | hosted d =>
    obtain ⟨reply, -, hends⟩ := forwardAt_hosted c asked answered models later inputs d
    rw [spanIf, if_pos hc] at hends
    simp only [hends]
    exact settle_told (told_finishHosted ⟨rfl, rfl, rfl, rfl⟩) reply
  | contexts r =>
    cases hq : ContextsRetriever.query inputs with
    | error e =>
      have hnil := forwardAt_unasked c asked answered models later inputs hq r
      exact absurd (by rw [hnil]) he
    | ok q =>
      obtain ⟨-, hends⟩ := forwardAt_contexts c asked answered models later inputs hq r
      simp only [hends]
      exact settle_told (told_finishContexts hc r q) _

theorem sink_of_none {f : Forwarded} (h : f.span = none) (kept : List Span) :
    f.sink c kept = kept := by
  rw [Forwarded.sink, h]
  rfl

theorem sink_of_some {f : Forwarded} {s : Span} (hc : c.tracing = true) (h : f.span = some s)
    (kept : List Span) : f.sink c kept = kept ++ [s] := by
  rw [Forwarded.sink, h]
  exact if_pos hc

theorem forward_spans (c : InvocationContext) (asked answered : Moment)
    (models later : List LanguageModel) (module : Module) (inputs : Table Json)
    (h : module.IsTraced) :
    let f := module.forwardAt c asked answered models later inputs
    (c.tracing = false → ∀ kept, f.sink c kept = kept) ∧
    (f.effects = [] ↔ ∃ r e, module = .contexts r ∧ ContextsRetriever.query inputs = .error e ∧
      f.result = .error e) ∧
    (f.effects = [] → ∀ kept, f.sink c kept = kept) ∧
    (c.tracing = true → f.effects ≠ [] →
      (∃ m, f.result = .panic m ∧ ∀ kept, f.sink c kept = kept) ∨
      ∃ result s, f.result = .ofExcept result ∧ (∀ kept, f.sink c kept = kept ++ [s]) ∧
        s.Tells module (module.opening asked answered) answered result) ∧
    ∃ answered later,
      module.forward c asked models inputs =
        module.forwardAt c asked answered models later inputs := by
  intro f
  refine ⟨fun hc => sink_of_none (span_forwardAt_untraced h hc), effects_forwardAt h, ?_, ?_,
    forward_eq_forwardAt c asked models module inputs⟩
  · intro hnil
    obtain ⟨r, e, rfl, hq, -⟩ := (effects_forwardAt h).mp hnil
    exact sink_of_none (by simp only [f, forwardAt_unasked c asked answered models later inputs hq])
  · intro hc he
    rcases span_forwardAt h hc he with ⟨m, hm⟩ | ⟨result, s, hs, htells⟩
    · obtain ⟨hresult, hspan⟩ := Prod.mk.inj hm
      exact .inl ⟨m, hresult, sink_of_none hspan⟩
    · obtain ⟨hresult, hspan⟩ := Prod.mk.inj hs
      exact .inr ⟨result, s, hresult, sink_of_some hc hspan, htells⟩

def judged : HostedEvaluator :=
  ⟨"Judge", "e", "", ∅, ⟨fun _ _ => .ok ⟨.error, none, none, none, some "no", none⟩⟩⟩

def traced : InvocationContext := ⟨"t", .fresh, true⟩

theorem forward_spans_judged :
    (Module.hosted judged).IsTraced ∧
      ∃ s : Span,
        (∀ kept, ((Module.hosted judged).forwardAt traced ⟨0, 0⟩ ⟨5, 1⟩ [] [] ∅).sink traced kept =
          kept ++ [s]) ∧
        s.error = some (Error.invocation (.evaluatorFailed "e" (some "no"))).message ∧
        s.timestamps.startedAt = 0 ∧ s.timestamps.finishedAt = some 5 := by
  have htraced : (Module.hosted judged).IsTraced := .hosted judged
  obtain ⟨-, -, -, hspan, -⟩ := forward_spans traced ⟨0, 0⟩ ⟨5, 1⟩ [] [] (.hosted judged) ∅ htraced
  refine ⟨htraced, ?_⟩
  rcases hspan rfl (by nofun) with ⟨m, hm, -⟩ | ⟨result, s, hresult, hsink, htells⟩
  · cases hm
  · have hfailed : result = .error (.invocation (.evaluatorFailed "e" (some "no"))) := by
      cases result <;> cases hresult
      rfl
    obtain ⟨hbegan, -⟩ := htells.began
    exact ⟨s, hsink, htells.failed _ hfailed, hbegan, htells.ended⟩

def passageless : ContextsRetriever := ⟨"R", .fixed [], 3⟩

/-- A retriever fails without a span when it has no query, and its span begins when the call, made
at 0, is over. -/
theorem forward_unspanned :
    let run (inputs : Table Json) :=
      (Module.contexts passageless).forwardAt traced ⟨0, 0⟩ ⟨5, 1⟩ [] [] inputs
    let ambiguous := run (.ofList [("a", .str "x"), ("b", .str "y")])
    let answered := run (.ofList [("query", .str "q")])
    (ambiguous.result = .error (.invocation .queryExpected) ∧ ambiguous.sink traced [] = []) ∧
      answered.effects.length = 1 ∧
      (answered.sink traced []).map (fun s => s.timestamps) = [⟨5, some 5⟩] := by
  intro run ambiguous answered
  exact ⟨⟨rfl, rfl⟩, rfl, rfl⟩

end Module

end NodeRun
