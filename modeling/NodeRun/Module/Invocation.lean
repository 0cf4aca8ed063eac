import NodeRun.Module.Basic

namespace NodeRun

/-- A moment of a run: its time, and a number that no other moment has. -/
structure Moment where
  now : Int64
  serial : Nat
  deriving DecidableEq, Repr

namespace Moment

/-- An identifier of 32 digits that is ordered by time: the milliseconds, the mark of the layout
that counts them, and the number of the moment. -/
def spanId (m : Moment) : String :=
  "span_" ++ String.ofList
    (Text.hexPadded 12 m.now.toInt.toNat ++ "70008".toList ++ Text.hexPadded 15 m.serial)

def startSpan (m : Moment) (type : SpanType) (name : String) : Span :=
  Span.start m.spanId type name m.now

end Moment

inductive Pending where
  | completion (p : Predict) (request : CompletionRequest) (asked : LanguageModel.Asked)
      (span : Option Span)
  | passages (r : ContextsRetriever) (query : String)
  | hosted (h : HostedEvaluator) (request : EvaluationRequest) (span : Option Span)
  | evaluator (e : LocalEvaluator) (inputs : Table Json)

namespace Pending

def delay : Pending → Nat
  | completion _ _ (.waiting d _) _ => d
  | _ => 0

end Pending

inductive Begun where
  | finished (result : Except Error Prediction)
  | pending (call : Pending)

namespace Invocation

def spanIf (c : InvocationContext) (m : Moment) (type : SpanType) (name : String)
    (input : Table Json) : Option Span :=
  if c.tracing then some { m.startSpan type name with input := some (.ofTable input) } else none

def begin (c : InvocationContext) (m : Moment) (models : List LanguageModel) (module : Module)
    (inputs : Table Json) : Begun × List LanguageModel × List Effect :=
  match module with
  | .terminal => (.finished (.ok (.ofOutputs inputs)), models, [])
  | .contexts r =>
    match ContextsRetriever.query inputs with
    | .error e => (.finished (.error e), models, [])
    | .ok q => (.pending (.passages r q), models,
        [.passagesWanted r.backend.recorded q r.k c.settings])
  | .hosted h =>
    let request := h.request inputs
    (.pending (.hosted h request (spanIf c m .evaluation h.name inputs)), models,
      [.hostedWanted request h.apiKey])
  | .evaluator e => (.pending (.evaluator e inputs), models, [.localWanted e.recorded c inputs])
  | .predict p =>
    let request := p.request inputs
    let span := (spanIf c m .llm p.schema.name inputs).map
      (fun s => { s with model := some p.model.name })
    let (asked, model) := (LanguageModel.atPlace models p.model.index).ask request c.settings
    (.pending (.completion p request asked span), models.set p.model.index model,
      [.completionWanted p.model request c.settings])

def close {α : Type} (now : Int64) (onOk : α → Span → Span) (result : Except Error α)
    (span : Span) : Span :=
  Span.finish now
    (match result with
      | .ok x => onOk x span
      | .error e => { span with error := some e.message })

def ofUsage (outputs : Table Json) (usage : TokenUsage) : Prediction := ⟨outputs, usage.cost⟩

end Invocation

namespace Pending

open Invocation

def finishPredict (m : Moment) (p : Predict) (span : Option Span)
    (reply : Except Error Completion) : Except Error Prediction × Option Span :=
  let result := reply.bind p.read
  (result.map (fun x => ofUsage x.1 x.2),
    span.map (close m.now
      (fun x s => { s with output := some (.ofTable x.1), metrics := some x.2 }) result))

def finishContexts (c : InvocationContext) (m : Moment) (r : ContextsRetriever) (query : String)
    (reply : Except Error (List Passage)) : Except Error Prediction × Option Span :=
  (reply.map (fun ps => .ofOutputs (ContextsRetriever.outputs ps)),
    if c.tracing then
      some (close m.now
        (fun ps s => { s with contexts := some (ContextsRetriever.contents ps) }) reply
        { m.startSpan .rag r.name with input := some (.str query) })
    else none)

def costMetrics (r : EvaluationResult) : Option SpanMetrics :=
  r.cost.map (fun c => { TokenUsage.unknown with cost := some c.amount })

def finishHosted (m : Moment) (h : HostedEvaluator) (span : Option Span)
    (reply : Except Error EvaluationResult) : Except Error Prediction × Option Span :=
  let result := reply.bind h.read
  (result.map (fun r => ⟨r.outputs, r.cost.map Money.amount⟩),
    span.map (close m.now
      (fun r s => { s with output := some (.ofTable r.outputs), metrics := costMetrics r }) result))

def settle {α β : Type} (reply : Reply α) (f : Except Error α → Except Error Prediction × Option β) :
    Reply Prediction × Option β :=
  match reply with
  | .panic m => (.panic m, none)
  | .ok x => let (r, s) := f (.ok x); (.ofExcept r, s)
  | .error e => let (r, s) := f (.error e); (.ofExcept r, s)

def finish (c : InvocationContext) (m : Moment) (models : List LanguageModel) :
    Pending → Reply Prediction × Option Span × List LanguageModel
  | .completion p request asked span =>
    let (reply, model) :=
      (LanguageModel.atPlace models p.model.index).resolve asked request c.settings
    let (result, span) := settle reply (finishPredict m p span)
    (result, span, models.set p.model.index model)
  | .passages r query =>
    let (result, span) := settle (r.backend.reply query r.k c.settings) (finishContexts c m r query)
    (result, span, models)
  | .hosted h request span =>
    let (result, span) := settle (h.client.reply request h.apiKey) (finishHosted m h span)
    (result, span, models)
  | .evaluator e inputs => (e.reply c inputs, none, models)

end Pending

end NodeRun
