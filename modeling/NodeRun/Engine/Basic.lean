import NodeRun.Engine.Config
import NodeRun.Module.Compiler
import NodeRun.Trace.Scope

namespace NodeRun

inductive Reporter where
  | log
  | recording
  | panicking (message : String)
  deriving DecidableEq, Repr

structure Engine where
  config : EngineConfig
  compiler : Compiler
  tracer : Tracer
  reporter : Reporter

end NodeRun
