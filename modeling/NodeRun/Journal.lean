import NodeRun.Engine.Config
import NodeRun.Backend.Evaluation
import NodeRun.Model.Language
import NodeRun.Module.Context
import NodeRun.Trace.Options

namespace NodeRun

inductive Level where
  | trace
  | debug
  | info
  | warn
  | error
  deriving DecidableEq, Repr

def Level.name : Level → String
  | trace => "TRACE"
  | debug => "DEBUG"
  | info => "INFO"
  | warn => "WARN"
  | error => "ERROR"

inductive Notice where
  | limitRaised
  | engineReady
  | executing
  | executed
  | scopeRefused
  | failed
  | stopped
  | compiling
  | signatureCompiled
  | eventReceived
  | nothingToStop
  | stopElsewhere
  | stopping
  | superseding
  | scopeOpened
  | noSpans
  | keyMissing
  | sendingSpans
  | flushFailed
  | failureReported
  deriving DecidableEq, Repr

namespace Notice

def level : Notice → Level
  | limitRaised => .warn
  | engineReady => .info
  | executing => .debug
  | executed => .debug
  | scopeRefused => .warn
  | failed => .error
  | stopped => .debug
  | compiling => .debug
  | signatureCompiled => .trace
  | eventReceived => .trace
  | nothingToStop => .debug
  | stopElsewhere => .debug
  | stopping => .info
  | superseding => .debug
  | scopeOpened => .debug
  | noSpans => .debug
  | keyMissing => .warn
  | sendingSpans => .debug
  | flushFailed => .warn
  | failureReported => .error

def target : Notice → String
  | limitRaised | engineReady | executing | executed | scopeRefused | failed | stopped =>
    "nvisy_studio::engine"
  | compiling | signatureCompiled => "nvisy_studio::compiler"
  | eventReceived | nothingToStop | stopElsewhere | stopping | superseding =>
    "nvisy_studio::service"
  | scopeOpened | noSpans | keyMissing | sendingSpans | flushFailed => "nvisy_studio::trace"
  | failureReported => "nvisy_studio::report"

def message : Notice → String
  | limitRaised => "max_concurrent_executions is 0, allowing one execution at a time"
  | engineReady => "Studio engine initialized"
  | executing => "Executing component"
  | executed => "Component executed"
  | scopeRefused => "Failed to open trace scope, running untraced"
  | failed => "Component execution failed"
  | stopped => "Component execution cancelled"
  | compiling => "Compiling node"
  | signatureCompiled => "Signature compiled"
  | eventReceived => "Client event received"
  | nothingToStop => "No running execution to stop"
  | stopElsewhere => "Stop request targets another node, ignoring"
  | stopping => "Stopping execution"
  | superseding => "Superseding running execution"
  | scopeOpened => "Trace scope opened"
  | noSpans => "No spans to send"
  | keyMissing => "API key is not set, spans will not be sent"
  | sendingSpans => "Sending spans"
  | flushFailed => "Failed to send spans"
  | failureReported => "Component execution failed"

end Notice

inductive Effect where
  | note (notice : Notice)
  | modelWanted (config : ModelConfig)
  | backendWanted (cls : String) (settings : Settings)
  | evaluatorWanted (cls : String)
  | forwardStarted (inputs : Table Json)
  | completionWanted (model : ModelRef) (request : CompletionRequest)
      (settings : InvocationSettings)
  | passagesWanted (recorded : Bool) (query : String) (k : Nat) (settings : InvocationSettings)
  | localWanted (recorded : Bool) (context : InvocationContext) (inputs : Table Json)
  | hostedWanted (request : EvaluationRequest) (apiKey : String)
  | scopeOpened (options : TraceOptions)
  | scopeFlushed (options : TraceOptions)
  | batchSent (batch : SpanBatch) (apiKey : String)
  | spanKept (span : Span)
  | failureReported (error : Error) (context : ErrorContext)
  deriving DecidableEq, Repr

namespace Effect

def notice? : Effect → Option Notice
  | note n => some n
  | _ => none

def config? : Effect → Option ModelConfig
  | modelWanted c => some c
  | _ => none

def options? : Effect → Option TraceOptions
  | scopeOpened o => some o
  | _ => none

def isFlush : Effect → Bool
  | scopeFlushed _ => true
  | _ => false

def batch? : Effect → Option (SpanBatch × String)
  | batchSent b k => some (b, k)
  | _ => none

def span? : Effect → Option Span
  | spanKept s => some s
  | _ => none

def report? : Effect → Option (Error × ErrorContext)
  | failureReported e c => some (e, c)
  | _ => none

def hosted? : Effect → Option (EvaluationRequest × String)
  | hostedWanted r k => some (r, k)
  | _ => none

end Effect

end NodeRun
