import NodeRun.Trace.Span

namespace NodeRun

structure InvocationContext where
  traceId : String
  settings : InvocationSettings
  tracing : Bool
  deriving DecidableEq, Repr

namespace InvocationContext

def build (traceId : Option String) (settings : Option InvocationSettings) (tracing : Bool) :
    Except Error InvocationContext :=
  match traceId with
  | some t => .ok ⟨t, settings.getD .standard, tracing⟩
  | none => .error (.configuration (.uninitialized "trace_id"))

def record (c : InvocationContext) (kept : List Span) (s : Span) : List Span :=
  if c.tracing then kept ++ [s] else kept

end InvocationContext

end NodeRun
