import NodeRun.Coercion

namespace NodeRun

structure ModelChoice where
  model : Option String
  temperature : Option Real64
  maxTokens : Option UInt32
  params : Option (Table String)
  deriving DecidableEq, Repr

namespace ModelChoice

def unset : ModelChoice := ⟨none, none, none, none⟩

def named (model : String) : ModelChoice := { unset with model := some model }

def decode : Decoder ModelChoice :=
  Decode.record "struct LlmConfig"
    ((Fields.optional "model" Decode.string).map ModelChoice.mk
      |>.and (.optional "temperature" Decode.real)
      |>.and (.optional "max_tokens" Decode.uint32)
      |>.and (.optional "litellm_params" (Decode.table Decode.string)))

def toJson (c : ModelChoice) : Json :=
  Json.record
    [("model", c.model.map .str),
     ("temperature", c.temperature.map Json.ofReal),
     ("max_tokens", c.maxTokens.map (fun n => .int n.toNat)),
     ("litellm_params", c.params.map Json.strs)]

end ModelChoice

structure ModelConfig where
  provider : Option String
  model : String
  temperature : Real64
  maxTokens : UInt32
  params : Table String
  deriving DecidableEq, Repr

namespace ModelConfig

def decode : Decoder ModelConfig :=
  Decode.record "struct LanguageModelConfig"
    ((Fields.optional "provider" Decode.string).map ModelConfig.mk
      |>.and (.required "model" Decode.string)
      |>.and (.required "temperature" Decode.real)
      |>.and (.required "max_tokens" Decode.uint32)
      |>.and (.withDefault ∅ "params" (Decode.table Decode.string)))

def toJson (c : ModelConfig) : Json :=
  Json.record
    [("provider", c.provider.map .str),
     ("model", some (.str c.model)),
     ("temperature", some (Json.ofReal c.temperature)),
     ("max_tokens", some (.int c.maxTokens.toNat)),
     ("params", if c.params.isEmpty then none else some (Json.strs c.params))]

def defaultTemperature : Real64 := Real64.zero

def defaultMaxTokens : UInt32 := 2048

def providerOf (model : String) : Option String :=
  if '/' ∈ model.toList then some (String.ofList (model.toList.takeWhile (· ≠ '/'))) else none

/-- A model name among the parameters counts even when it is empty. -/
def ofChoice (c : ModelChoice) : Except Error ModelConfig :=
  let params := c.params.getD ∅
  match ((params.get? "model") <|> c.model).filter (fun m => m ≠ "") with
  | none => .error (.configuration .modelMissing)
  | some model =>
    .ok
      { provider := providerOf model
        model := model
        temperature := c.temperature.getD defaultTemperature
        maxTokens := c.maxTokens.getD defaultMaxTokens
        params := params.erase "model" }

end ModelConfig

end NodeRun
