import NodeRun.Error

namespace NodeRun

structure EngineConfig where
  platform : String
  environment : String
  maxConcurrent : UInt64
  deriving DecidableEq, Repr

namespace EngineConfig

def standard : EngineConfig := ⟨"optimization_studio", "development", 10⟩

def decode : Decoder EngineConfig :=
  Decode.record "struct EngineConfig"
    ((Fields.withDefault standard.platform "platform" Decode.string).map EngineConfig.mk
      |>.and (.withDefault standard.environment "environment" Decode.string)
      |>.and (.withDefault standard.maxConcurrent "max_concurrent_executions"
        (Decode.uint64 "usize")))

def toJson (c : EngineConfig) : Json :=
  Json.record
    [("platform", some (.str c.platform)),
     ("environment", some (.str c.environment)),
     ("max_concurrent_executions", some (.int c.maxConcurrent.toNat))]

def build (platform environment : Option String) (maxConcurrent : Option UInt64) :
    Except String EngineConfig :=
  if maxConcurrent = some 0 then .error "max_concurrent_executions must be at least 1"
  else .ok ⟨platform.getD standard.platform, environment.getD standard.environment,
    maxConcurrent.getD standard.maxConcurrent⟩

def permits (c : EngineConfig) : Nat := max 1 c.maxConcurrent.toNat

end EngineConfig

structure ErrorContext where
  traceId : String
  workflowId : String
  deriving DecidableEq, Repr

namespace ErrorContext

def decode : Decoder ErrorContext :=
  Decode.record "struct ErrorContext"
    ((Fields.required "trace_id" Decode.string).map ErrorContext.mk
      |>.and (.required "workflow_id" Decode.string))

def toJson (c : ErrorContext) : Json :=
  Json.record [("trace_id", some (.str c.traceId)), ("workflow_id", some (.str c.workflowId))]

end ErrorContext

end NodeRun
