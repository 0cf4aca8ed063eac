import NodeRun.Model.Completion

namespace NodeRun

inductive SpanType where
  | span
  | llm
  | rag
  | module
  | evaluation
  deriving DecidableEq, Repr

namespace SpanType

def name : SpanType → String
  | span => "span"
  | llm => "llm"
  | rag => "rag"
  | module => "module"
  | evaluation => "evaluation"

def all : List SpanType := [span, llm, rag, module, evaluation]

def ofName? (s : String) : Option SpanType := all.find? (fun x => x.name = s)

theorem ofName?_name (x : SpanType) : ofName? x.name = some x := by cases x <;> decide

def decode : Decoder SpanType := Decode.variant (all.map name) ofName?

def toJson (x : SpanType) : Json := .str x.name

end SpanType

structure SpanTimes where
  startedAt : Int64
  finishedAt : Option Int64
  deriving DecidableEq, Repr

namespace SpanTimes

def decode : Decoder SpanTimes :=
  Decode.record "struct SpanTimestamps"
    ((Fields.required "started_at" Decode.int64).map SpanTimes.mk
      |>.and (.optional "finished_at" Decode.int64))

def toJson (t : SpanTimes) : Json :=
  Json.record
    [("started_at", some (.int t.startedAt.toInt)),
     ("finished_at", t.finishedAt.map (fun n => .int n.toInt))]

end SpanTimes

/-- Token counts and cost of a span, the same figures that a model reports. -/
abbrev SpanMetrics := TokenUsage

structure Span where
  id : String
  parentId : Option String
  type : SpanType
  name : Option String
  model : Option String
  input : Option Json
  output : Option Json
  contexts : Option (List Json)
  error : Option String
  metrics : Option SpanMetrics
  timestamps : SpanTimes
  deriving DecidableEq, Repr

namespace Span

def decodeMetrics : Decoder SpanMetrics := Decode.record "struct SpanMetrics" TokenUsage.fields

def decode : Decoder Span :=
  Decode.record "struct Span"
    ((Fields.required "span_id" Decode.string).map Span.mk
      |>.and (.optional "parent_id" Decode.string)
      |>.and (.required "type" SpanType.decode)
      |>.and (.optional "name" Decode.string)
      |>.and (.optional "model" Decode.string)
      |>.and (.optional "input" Decode.any)
      |>.and (.optional "output" Decode.any)
      |>.and (.optional "contexts" (Decode.list Decode.any))
      |>.and (.optional "error" Decode.string)
      |>.and (.optional "metrics" decodeMetrics)
      |>.and (.required "timestamps" SpanTimes.decode))

def toJson (s : Span) : Json :=
  Json.record
    [("span_id", some (.str s.id)),
     ("parent_id", s.parentId.map .str),
     ("type", some s.type.toJson),
     ("name", s.name.map .str),
     ("model", s.model.map .str),
     ("input", s.input),
     ("output", s.output),
     ("contexts", s.contexts.map .arr),
     ("error", s.error.map .str),
     ("metrics", s.metrics.map TokenUsage.toJson),
     ("timestamps", some s.timestamps.toJson)]

def start (id : String) (type : SpanType) (name : String) (now : Int64) : Span :=
  ⟨id, none, type, some name, none, none, none, none, none, none, ⟨now, none⟩⟩

def withDetails (model : Option String) (input : Option Json) (parent : Option String)
    (s : Span) : Span :=
  { s with
    model := model <|> s.model
    input := input <|> s.input
    parentId := parent <|> s.parentId }

def isFinished (s : Span) : Bool := s.timestamps.finishedAt.isSome

def finish (now : Int64) (s : Span) : Span :=
  if s.isFinished then s else { s with timestamps := { s.timestamps with finishedAt := some now } }

@[simp] theorem isFinished_finish (now : Int64) (s : Span) : (s.finish now).isFinished = true := by
  unfold finish
  split
  · assumption
  · rfl

theorem finish_of_isFinished {s : Span} (h : s.isFinished = true) (now : Int64) :
    s.finish now = s := by
  simp [finish, h]

end Span

structure SpanBatch where
  traceId : String
  metadata : Table String
  spans : List Span
  deriving DecidableEq, Repr

namespace SpanBatch

def decode : Decoder SpanBatch :=
  Decode.record "struct SpanBatch"
    ((Fields.required "trace_id" Decode.string).map SpanBatch.mk
      |>.and (.required "metadata" (Decode.table Decode.string))
      |>.and (.required "spans" (Decode.list Span.decode)))

def toJson (b : SpanBatch) : Json :=
  Json.record
    [("trace_id", some (.str b.traceId)),
     ("metadata", some (Json.strs b.metadata)),
     ("spans", some (Json.list Span.toJson b.spans))]

end SpanBatch

end NodeRun
