import NodeRun.Json.Encode

namespace NodeRun

structure TraceOptions where
  traceId : String
  apiKey : String
  metadata : Table String
  skipRootSpan : Bool
  deriving DecidableEq, Repr

namespace TraceOptions

def new (traceId apiKey : String) : TraceOptions := ⟨traceId, apiKey, ∅, false⟩

def withMetadata (key value : String) (o : TraceOptions) : TraceOptions :=
  { o with metadata := o.metadata.insert key value }

def withSkipRootSpan (skip : Bool) (o : TraceOptions) : TraceOptions :=
  { o with skipRootSpan := skip }

def toJson (o : TraceOptions) : Json :=
  Json.record
    [("trace_id", some (.str o.traceId)),
     ("api_key", some (.str o.apiKey)),
     ("metadata", some (Json.strs o.metadata)),
     ("skip_root_span", some (.bool o.skipRootSpan))]

end TraceOptions

end NodeRun
