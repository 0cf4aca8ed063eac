import NodeRun.Journal
import NodeRun.Module.Prediction
import NodeRun.Backend.Passage

namespace NodeRun

structure Backend where
  recorded : Bool
  reply : String → Nat → InvocationSettings → Reply (List Passage)

def Backend.fixed (passages : List Passage) : Backend :=
  ⟨false, fun _ k _ => .ok (passages.take k)⟩

structure LocalEvaluator where
  name : String
  recorded : Bool
  reply : InvocationContext → Table Json → Reply Prediction

structure EvaluationClient where
  reply : EvaluationRequest → String → Reply EvaluationResult

structure Predict where
  schema : Schema
  model : ModelRef
  resolved : ModelRef
  demos : List (Table Json)
  deriving DecidableEq, Repr

namespace Predict

def new (schema : Schema) (model : ModelRef) (demos : List (Table Json)) : Predict :=
  ⟨schema, model, model, demos⟩

def bind (p : Predict) (model : ModelRef) : Predict := { p with model := model }

def reset (p : Predict) : Predict := { p with model := p.resolved, demos := [] }

def request (p : Predict) (inputs : Table Json) : CompletionRequest := ⟨p.schema, inputs, p.demos⟩

def gather (produced outputs : Table Json) : List SchemaSlot → Table Json × List String
  | [] => (outputs, [])
  | s :: slots =>
    match produced.get? s.name with
    | some v => gather (produced.erase s.name) (outputs.insert s.name v) slots
    | none =>
      let (outputs, names) := gather produced outputs slots
      (outputs, if s.optional then names else s.name :: names)

def collect (p : Predict) (produced : Table Json) : Except Error (Table Json) :=
  match gather produced ∅ p.schema.outputs with
  | (outputs, []) => .ok outputs
  | (_, names) => .error (.invocation (.missingOutputs p.model.name names))

def read (p : Predict) (c : Completion) : Except Error (Table Json × TokenUsage) :=
  (p.collect c.outputs).map (fun outputs => (outputs, c.usage.getD .unknown))

end Predict

structure ContextsRetriever where
  name : String
  backend : Backend
  k : Nat

namespace ContextsRetriever

def standardCount : Nat := 3

def new (name : String) (backend : Backend) (settings : Settings) : ContextsRetriever :=
  ⟨name, backend, (Settings.count? settings "k").getD standardCount⟩

def query (inputs : Table Json) : Except Error String :=
  match (inputs.get? "query") <|> (match inputs.entries with | [e] => some e.2 | _ => none) with
  | none => .error (.invocation .queryExpected)
  | some .null => .error (.invocation .queryEmpty)
  | some (.str s) => .ok s
  | some j => .ok j.compact

def contents (ps : List Passage) : List Json := ps.map (fun p => .str p.content)

def outputs (ps : List Passage) : Table Json :=
  Table.empty.insert "contexts" (.arr (contents ps))

end ContextsRetriever

structure HostedEvaluator where
  name : String
  evaluator : String
  apiKey : String
  settings : Settings
  client : EvaluationClient

namespace HostedEvaluator

def request (h : HostedEvaluator) (inputs : Table Json) : EvaluationRequest :=
  ⟨h.evaluator, h.name, h.settings, inputs⟩

def read (h : HostedEvaluator) (r : EvaluationResult) : Except Error EvaluationResult :=
  if r.status = .error then .error (.invocation (.evaluatorFailed h.evaluator r.details))
  else .ok r

def shown (h : HostedEvaluator) : String :=
  "HostedEvaluator \x7b name: " ++ Text.quoted h.name ++ ", evaluator: " ++
    Text.quoted h.evaluator ++ ", settings: Settings(" ++ Json.shownTable h.settings ++
    "), .. \x7d"

end HostedEvaluator

inductive Module where
  | predict (p : Predict)
  | contexts (r : ContextsRetriever)
  | hosted (h : HostedEvaluator)
  | evaluator (e : LocalEvaluator)
  | terminal

namespace Module

def name : Module → String
  | predict p => p.schema.name
  | contexts r => r.name
  | hosted h => h.name
  | evaluator e => e.name
  | terminal => "End"

def reset : Module → Module
  | predict p => predict p.reset
  | m => m

end Module

end NodeRun
