import NodeRun.Model.Schema

namespace NodeRun

structure CompletionRequest where
  schema : Schema
  inputs : Table Json
  demos : List (Table Json)
  deriving DecidableEq, Repr

namespace CompletionRequest

def toJson (r : CompletionRequest) : Json :=
  Json.record
    [("schema", some r.schema.toJson),
     ("inputs", some (Json.ofTable r.inputs)),
     ("demos", some (Json.list Json.ofTable r.demos))]

end CompletionRequest

structure TokenUsage where
  promptTokens : Option UInt64
  completionTokens : Option UInt64
  cost : Option Real64
  deriving DecidableEq, Repr

namespace TokenUsage

def unknown : TokenUsage := ⟨none, none, none⟩

def fields : Fields TokenUsage :=
  (Fields.optional "prompt_tokens" (Decode.uint64 "u64")).map TokenUsage.mk
    |>.and (.optional "completion_tokens" (Decode.uint64 "u64"))
    |>.and (.optional "cost" Decode.real)

def decode : Decoder TokenUsage := Decode.record "struct TokenUsage" fields

def toJson (u : TokenUsage) : Json :=
  Json.record
    [("prompt_tokens", u.promptTokens.map (fun n => .int n.toNat)),
     ("completion_tokens", u.completionTokens.map (fun n => .int n.toNat)),
     ("cost", u.cost.map Json.ofReal)]

end TokenUsage

structure Completion where
  outputs : Table Json
  usage : Option TokenUsage
  deriving DecidableEq, Repr

namespace Completion

def decode : Decoder Completion :=
  Decode.record "struct Completion"
    ((Fields.required "outputs" (Decode.table Decode.any)).map Completion.mk
      |>.and (.optional "usage" TokenUsage.decode))

def toJson (c : Completion) : Json :=
  Json.record
    [("outputs", some (Json.ofTable c.outputs)), ("usage", c.usage.map TokenUsage.toJson)]

end Completion

structure InvocationSettings where
  cacheEnabled : Bool
  experimental : Bool
  deriving DecidableEq, Repr

namespace InvocationSettings

def fresh : InvocationSettings := ⟨false, true⟩

def standard : InvocationSettings := ⟨true, false⟩

def toJson (s : InvocationSettings) : Json :=
  Json.record
    [("cache_enabled", some (.bool s.cacheEnabled)), ("experimental", some (.bool s.experimental))]

end InvocationSettings

end NodeRun
