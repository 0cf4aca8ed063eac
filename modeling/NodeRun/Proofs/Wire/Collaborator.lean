import NodeRun.Backend.Evaluation
import NodeRun.Backend.Passage
import NodeRun.Engine.Config
import NodeRun.Proofs.Wire.Message
import NodeRun.Trace.Span

namespace NodeRun

open Decode

namespace Direction

theorem strict_decode : Strict decode toJson (fun _ => True) := strict_variant ofName?_name

end Direction

namespace SchemaSlot

theorem strict_decode : Strict decode toJson (fun _ => True) :=
  .record
    ((Fields.Lawful.required_all strict_string name).map mk (by intros; trivial)
      |>.and (.required_all FieldType.strict_decode type)
      |>.and (.required_all Direction.strict_decode direction)
      |>.and (.optional_all strict_string desc)
      |>.and (.withDefault_all strict_bool optional))
    (by decide)

end SchemaSlot

namespace Schema

theorem strict_decode : Strict decode toJson (fun _ => True) :=
  .record
    ((Fields.Lawful.required_all strict_string name).map mk (by intros; trivial)
      |>.and (.optional_all strict_string instructions)
      |>.and (.required_all SchemaSlot.strict_decode.list_all inputs)
      |>.and (.required_all SchemaSlot.strict_decode.list_all outputs))
    (by decide)

end Schema

namespace ModelConfig

def Canonical (c : ModelConfig) : Prop := c.temperature.isFinite = true

/-- An empty table of parameters is not written, and is the default. -/
theorem lawful_params {C : ModelConfig → Prop} :
    (Fields.withDefault ∅ "params" (Decode.table Decode.string)).Lawful C params
      (fun c => [("params", if c.params.isEmpty then none else some (Json.strs c.params))])
      (fun _ => True) := by
  refine .field strict_strings.yields (fun _ _ => trivial) ?_ ?_ ?_
  · intro c _ v hv
    split at hv
    · cases hv
    · cases hv
      exact strict_strings.takes c.params trivial
  · intro c _ hv
    split at hv
    · rename_i hempty
      exact congrArg some (Table.ext_entries (List.isEmpty_iff.mp hempty).symm)
    · cases hv
  · intro c _ v hv
    split at hv
    · cases hv
    · cases hv
      exact strict_strings.writes c.params trivial

theorem strict_decode : Strict decode toJson Canonical :=
  .record
    ((Fields.Lawful.optional_all strict_string provider).map mk (by intros; assumption)
      |>.and (.required_all strict_string model)
      |>.and (.required strict_real temperature fun _ h => h)
      |>.and (.required_all strict_uint32 maxTokens)
      |>.and lawful_params)
    (by decide)

end ModelConfig

namespace TokenUsage

def Canonical (u : TokenUsage) : Prop := ∀ x ∈ u.cost, x.isFinite = true

theorem lawful_fields :
    fields.Lawful Canonical id
      (fun u => [("prompt_tokens", u.promptTokens.map (fun n => .int n.toNat)),
        ("completion_tokens", u.completionTokens.map (fun n => .int n.toNat)),
        ("cost", u.cost.map Json.ofReal)])
      Canonical :=
  (Fields.Lawful.optional_all (strict_uint64 "u64") promptTokens).map mk (by intros; assumption)
    |>.and (.optional_all (strict_uint64 "u64") completionTokens)
    |>.and (.optional strict_real cost fun _ h => h)

theorem strict_decode : Strict decode toJson Canonical := .record lawful_fields (by decide)

end TokenUsage

namespace Completion

structure Canonical (c : Completion) : Prop where
  outputs : c.outputs.Canonical
  usage : ∀ u ∈ c.usage, u.Canonical

theorem strict_decode : Strict decode toJson Canonical :=
  .record
    ((Fields.Lawful.required strict_values outputs fun _ h => h.outputs).map mk
        (by intros; constructor <;> assumption)
      |>.and (.optional TokenUsage.strict_decode usage fun _ h => h.usage))
    (by decide)

end Completion

namespace EvaluationRequest

structure Canonical (r : EvaluationRequest) : Prop where
  settings : r.settings.Canonical
  data : r.data.Canonical

theorem strict_decode : Strict decode toJson Canonical :=
  .record
    ((Fields.Lawful.required_all strict_string evaluator).map mk
        (by intros; constructor <;> assumption)
      |>.and (.required_all strict_string name)
      |>.and (.required strict_values settings fun _ h => h.settings)
      |>.and (.required strict_values data fun _ h => h.data))
    (by decide)

end EvaluationRequest

namespace EvaluationStatus

theorem strict_decode : Strict decode toJson (fun _ => True) := strict_variant ofName?_name

end EvaluationStatus

namespace Money

def Canonical (m : Money) : Prop := m.amount.isFinite = true

theorem strict_decode : Strict decode toJson Canonical :=
  .record
    ((Fields.Lawful.required_all strict_string currency).map mk (by intros; assumption)
      |>.and (.required strict_real amount fun _ h => h))
    (by decide)

end Money

namespace EvaluationResult

structure Canonical (r : EvaluationResult) : Prop where
  score : ∀ x ∈ r.score, x.isFinite = true
  cost : ∀ m ∈ r.cost, m.Canonical

theorem strict_decode : Strict decode toJson Canonical :=
  .record
    ((Fields.Lawful.required_all EvaluationStatus.strict_decode status).map mk
        (by intros; constructor <;> assumption)
      |>.and (.optional strict_real score fun _ h => h.score)
      |>.and (.optional_all strict_bool passed)
      |>.and (.optional_all strict_string label)
      |>.and (.optional_all strict_string details)
      |>.and (.optional Money.strict_decode cost fun _ h => h.cost))
    (by decide)

end EvaluationResult

namespace Passage

def Canonical (p : Passage) : Prop := ∀ j ∈ p.metadata, j.Proper ∧ j ≠ .null

theorem strict_decode : Strict decode toJson Canonical :=
  .record
    ((Fields.Lawful.required_all strict_string content).map mk (by intros; assumption)
      |>.and (.free metadata fun _ h => h))
    (by decide)

end Passage

namespace SpanType

theorem strict_decode : Strict decode toJson (fun _ => True) := strict_variant ofName?_name

end SpanType

namespace SpanTimes

theorem strict_decode : Strict decode toJson (fun _ => True) :=
  .record
    ((Fields.Lawful.required_all strict_int64 startedAt).map mk (by intros; trivial)
      |>.and (.optional_all strict_int64 finishedAt))
    (by decide)

end SpanTimes

namespace Span

structure Canonical (s : Span) : Prop where
  input : ∀ j ∈ s.input, j.Proper ∧ j ≠ .null
  output : ∀ j ∈ s.output, j.Proper ∧ j ≠ .null
  contexts : ∀ js ∈ s.contexts, ∀ j ∈ js, j.Proper
  metrics : ∀ m ∈ s.metrics, m.Canonical

theorem strict_decodeMetrics : Strict decodeMetrics TokenUsage.toJson TokenUsage.Canonical :=
  .record TokenUsage.lawful_fields (by decide)

theorem strict_decode : Strict decode toJson Canonical :=
  .record
    ((Fields.Lawful.required_all strict_string id).map mk (by intros; constructor <;> assumption)
      |>.and (.optional_all strict_string parentId)
      |>.and (.required_all SpanType.strict_decode type)
      |>.and (.optional_all strict_string name)
      |>.and (.optional_all strict_string model)
      |>.and (.free input fun _ h => h.input)
      |>.and (.free output fun _ h => h.output)
      |>.and (.optional strict_anyList contexts fun _ h => h.contexts)
      |>.and (.optional_all strict_string error)
      |>.and (.optional strict_decodeMetrics metrics fun _ h => h.metrics)
      |>.and (.required_all SpanTimes.strict_decode timestamps))
    (by decide)

end Span

namespace SpanBatch

def Canonical (b : SpanBatch) : Prop := ∀ s ∈ b.spans, s.Canonical

theorem strict_decode : Strict decode toJson Canonical :=
  .record
    ((Fields.Lawful.required_all strict_string traceId).map mk (by intros; assumption)
      |>.and (.required_all strict_strings metadata)
      |>.and (.required Span.strict_decode.toFaithful.list spans fun _ h => h))
    (by decide)

end SpanBatch

namespace EngineConfig

theorem strict_decode : Strict decode toJson (fun _ => True) :=
  .record
    ((Fields.Lawful.withDefault_all strict_string platform).map mk (by intros; trivial)
      |>.and (.withDefault_all strict_string environment)
      |>.and (.withDefault_all (strict_uint64 "usize") maxConcurrent))
    (by decide)

end EngineConfig

namespace ErrorContext

theorem strict_decode : Strict decode toJson (fun _ => True) :=
  .record
    ((Fields.Lawful.required_all strict_string traceId).map mk (by intros; trivial)
      |>.and (.required_all strict_string workflowId))
    (by decide)

end ErrorContext

end NodeRun
