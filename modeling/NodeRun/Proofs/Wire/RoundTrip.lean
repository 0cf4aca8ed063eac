import NodeRun.Proofs.Wire.Collaborator

namespace NodeRun

structure WireCodec where
  Value : Type
  decode : Decoder Value
  encode : Value → Json
  Canonical : Value → Prop

inductive WireType where
  | nodeId
  | fieldType
  | fieldValue
  | field
  | settings
  | column
  | inlineDataset
  | dataset
  | modelChoice
  | component
  | signature
  | retriever
  | evaluator
  | terminal
  | node
  | workflow
  | executionStatus
  | timestamps
  | executionState
  | workflowState
  | executeRequest
  | stopRequest
  | noPayload
  | command
  | messagePayload
  | componentPayload
  | workflowPayload
  | event
  | direction
  | slot
  | schema
  | modelConfig
  | tokenUsage
  | completion
  | evaluationRequest
  | evaluationStatus
  | money
  | evaluationResult
  | passage
  | spanType
  | spanTimes
  | spanMetrics
  | span
  | spanBatch
  | engineConfig
  | errorContext
  deriving DecidableEq, Repr

namespace WireType

def codec : WireType → WireCodec
  | nodeId => ⟨String, Decode.string, .str, fun _ => True⟩
  | fieldType => ⟨FieldType, FieldType.decode, FieldType.toJson, fun _ => True⟩
  | fieldValue => ⟨FieldValue, FieldValue.decode, FieldValue.toJson, FieldValue.Canonical⟩
  | field => ⟨Field, Field.decode, Field.toJson, Field.Canonical⟩
  | settings => ⟨Settings, Decode.table Decode.any, Json.ofTable, Table.Canonical⟩
  | column => ⟨Column, Column.decode, Column.toJson, fun _ => True⟩
  | inlineDataset =>
    ⟨InlineDataset, InlineDataset.decode, InlineDataset.toJson, InlineDataset.Canonical⟩
  | dataset => ⟨Dataset, Dataset.decode, Dataset.toJson, Dataset.Canonical⟩
  | modelChoice => ⟨ModelChoice, ModelChoice.decode, ModelChoice.toJson, ModelChoice.Canonical⟩
  | component => ⟨Component, Component.decode, Component.toJson, Component.Canonical⟩
  | signature => ⟨Signature, Signature.decode, Signature.toJson, Signature.Canonical⟩
  | retriever => ⟨Retriever, Retriever.decode, Retriever.toJson, Retriever.Canonical⟩
  | evaluator => ⟨Evaluator, Evaluator.decode, Evaluator.toJson, Evaluator.Canonical⟩
  | terminal => ⟨Terminal, Terminal.decode, Terminal.toJson, Terminal.Canonical⟩
  | node => ⟨Node, Node.decode, Node.toJson, Node.Canonical⟩
  | workflow => ⟨Workflow, Workflow.decode, Workflow.toJson, Workflow.Canonical⟩
  | executionStatus =>
    ⟨ExecutionStatus, ExecutionStatus.decode, ExecutionStatus.toJson, fun _ => True⟩
  | timestamps => ⟨Timestamps, Timestamps.decode, Timestamps.toJson, fun _ => True⟩
  | executionState =>
    ⟨ExecutionState, ExecutionState.decode, ExecutionState.toJson, ExecutionState.Canonical⟩
  | workflowState =>
    ⟨WorkflowState, WorkflowState.decode, WorkflowState.toJson, WorkflowState.Canonical⟩
  | executeRequest =>
    ⟨ExecuteRequest, ExecuteRequest.decode, ExecuteRequest.toJson, ExecuteRequest.Canonical⟩
  | stopRequest => ⟨StopRequest, StopRequest.decode, StopRequest.toJson, fun _ => True⟩
  | noPayload => ⟨Unit, Command.noPayload, fun _ => .obj [], fun _ => True⟩
  | command => ⟨Command, Command.decode, Command.toJson, Command.Canonical⟩
  | messagePayload =>
    ⟨String, Event.messagePayload, fun m => Json.record [("message", some (.str m))],
      fun _ => True⟩
  | componentPayload =>
    ⟨Event, Event.componentPayload, Event.payloadJson, Event.CanonicalAs .componentState⟩
  | workflowPayload =>
    ⟨Event, Event.workflowPayload, Event.payloadJson, Event.CanonicalAs .workflowState⟩
  | event => ⟨Event, Event.decode, Event.toJson, Event.Canonical⟩
  | direction => ⟨Direction, Direction.decode, Direction.toJson, fun _ => True⟩
  | slot => ⟨SchemaSlot, SchemaSlot.decode, SchemaSlot.toJson, fun _ => True⟩
  | schema => ⟨Schema, Schema.decode, Schema.toJson, fun _ => True⟩
  | modelConfig => ⟨ModelConfig, ModelConfig.decode, ModelConfig.toJson, ModelConfig.Canonical⟩
  | tokenUsage => ⟨TokenUsage, TokenUsage.decode, TokenUsage.toJson, TokenUsage.Canonical⟩
  | completion => ⟨Completion, Completion.decode, Completion.toJson, Completion.Canonical⟩
  | evaluationRequest =>
    ⟨EvaluationRequest, EvaluationRequest.decode, EvaluationRequest.toJson,
      EvaluationRequest.Canonical⟩
  | evaluationStatus =>
    ⟨EvaluationStatus, EvaluationStatus.decode, EvaluationStatus.toJson, fun _ => True⟩
  | money => ⟨Money, Money.decode, Money.toJson, Money.Canonical⟩
  | evaluationResult =>
    ⟨EvaluationResult, EvaluationResult.decode, EvaluationResult.toJson,
      EvaluationResult.Canonical⟩
  | passage => ⟨Passage, Passage.decode, Passage.toJson, Passage.Canonical⟩
  | spanType => ⟨SpanType, SpanType.decode, SpanType.toJson, fun _ => True⟩
  | spanTimes => ⟨SpanTimes, SpanTimes.decode, SpanTimes.toJson, fun _ => True⟩
  | spanMetrics => ⟨SpanMetrics, Span.decodeMetrics, TokenUsage.toJson, TokenUsage.Canonical⟩
  | span => ⟨Span, Span.decode, Span.toJson, Span.Canonical⟩
  | spanBatch => ⟨SpanBatch, SpanBatch.decode, SpanBatch.toJson, SpanBatch.Canonical⟩
  | engineConfig => ⟨EngineConfig, EngineConfig.decode, EngineConfig.toJson, fun _ => True⟩
  | errorContext => ⟨ErrorContext, ErrorContext.decode, ErrorContext.toJson, fun _ => True⟩

theorem strict_codec :
    ∀ t : WireType, Decode.Strict t.codec.decode t.codec.encode t.codec.Canonical
  | nodeId => Decode.strict_string
  | fieldType => FieldType.strict_decode
  | fieldValue => FieldValue.strict_decode
  | field => Field.strict_decode
  | settings => Decode.strict_values
  | column => Column.strict_decode
  | inlineDataset => InlineDataset.strict_decode
  | dataset => Dataset.strict_decode
  | modelChoice => ModelChoice.strict_decode
  | component => Component.strict_decode
  | signature => Signature.strict_decode
  | retriever => Retriever.strict_decode
  | evaluator => Evaluator.strict_decode
  | terminal => Terminal.strict_decode
  | node => Node.strict_decode
  | workflow => Workflow.strict_decode
  | executionStatus => ExecutionStatus.strict_decode
  | timestamps => Timestamps.strict_decode
  | executionState => ExecutionState.strict_decode
  | workflowState => WorkflowState.strict_decode
  | executeRequest => ExecuteRequest.strict_decode
  | stopRequest => StopRequest.strict_decode
  | noPayload => Command.strict_noPayload
  | command => Command.strict_decode
  | messagePayload => Event.strict_messagePayload
  | componentPayload => Event.strict_componentPayload
  | workflowPayload => Event.strict_workflowPayload
  | event => Event.strict_decode
  | direction => Direction.strict_decode
  | slot => SchemaSlot.strict_decode
  | schema => Schema.strict_decode
  | modelConfig => ModelConfig.strict_decode
  | tokenUsage => TokenUsage.strict_decode
  | completion => Completion.strict_decode
  | evaluationRequest => EvaluationRequest.strict_decode
  | evaluationStatus => EvaluationStatus.strict_decode
  | money => Money.strict_decode
  | evaluationResult => EvaluationResult.strict_decode
  | passage => Passage.strict_decode
  | spanType => SpanType.strict_decode
  | spanTimes => SpanTimes.strict_decode
  | spanMetrics => Span.strict_decodeMetrics
  | span => Span.strict_decode
  | spanBatch => SpanBatch.strict_decode
  | engineConfig => EngineConfig.strict_decode
  | errorContext => ErrorContext.strict_decode

def read (t : WireType) (j : Json) : Except DecodeError t.codec.Value :=
  Decode.ofJson t.codec.decode j

def write (t : WireType) (x : t.codec.Value) : Json := (t.codec.encode x).normalize

theorem round_trip (t : WireType) :
    (∀ j x, j.Proper → t.read j = .ok x → t.codec.Canonical x) ∧
    (∀ x, t.codec.Canonical x → (t.write x).Proper ∧ t.read (t.write x) = .ok x) ∧
    ∀ j x, j.Proper → t.read j = .ok x → t.read (t.write x) = .ok x := by
  have hstrict := t.strict_codec
  have hcanonical : ∀ j x, j.Proper → t.read j = .ok x → t.codec.Canonical x :=
    fun j x hj hx => hstrict.yields .value j x hj hx
  have hagain : ∀ x, t.codec.Canonical x → t.read (t.write x) = .ok x :=
    fun x hx => hstrict.ofJson_normalize hx
  exact ⟨hcanonical, fun x hx => ⟨hstrict.writes x hx, hagain x hx⟩,
    fun j x hj hx => hagain x (hcanonical j x hj hx)⟩

theorem round_trip_listed_field :
    field.codec.Canonical ⟨"k", .int, none, none, none, some (.arr [.null])⟩ ∧
      (field.write ⟨"k", .int, none, none, none, some (.arr [.null])⟩).Proper ∧
      field.read (field.write ⟨"k", .int, none, none, none, some (.arr [.null])⟩) =
        .ok ⟨"k", .int, none, none, none, some (.arr [.null])⟩ := by
  have hproper : (Json.arr [.str "k", .str "int", .null, .null, .null, .arr [.null]]).Proper := by
    simp [Json.Proper, Json.ProperItems]
  have hread : field.read (.arr [.str "k", .str "int", .null, .null, .null, .arr [.null]]) =
      .ok ⟨"k", .int, none, none, none, some (.arr [.null])⟩ := rfl
  obtain ⟨hcanonical, hwrite, hagain⟩ := round_trip field
  have hx := hcanonical _ _ hproper hread
  exact ⟨hx, (hwrite _ hx).1, hagain _ _ hproper hread⟩

end WireType

end NodeRun
