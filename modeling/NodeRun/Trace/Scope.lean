import NodeRun.Journal

namespace NodeRun

/-- What a tracer does with spans: it forgets them, keeps those of all scopes together, or keeps
them by scope until the scope is flushed. -/
inductive Keeping where
  | forgotten
  | shared
  | buffered
  deriving DecidableEq, Repr

inductive TracerCall where
  | opening (options : TraceOptions)
  | tracking (options : TraceOptions)
  | recording (span : Span)
  | flushing (options : TraceOptions)
  deriving DecidableEq, Repr

/-- A tracer: whether a scope opens, what becomes of a flush, and the calls in which it panics.
Buffered scopes flush through their exporter, which is given a batch and the key. -/
structure Tracer where
  keeping : Keeping
  opens : TraceOptions → Except Error Unit
  flushed : TraceOptions → Except Error Unit
  sent : SpanBatch → String → Except Error Unit
  panic? : TracerCall → Option String

namespace Tracer

def noop : Tracer :=
  ⟨.forgotten, fun _ => .ok (), fun _ => .ok (), fun _ _ => .ok (), fun _ => none⟩

end Tracer

structure Scope where
  options : TraceOptions
  root : Option Span
  rootId : Option String
  buffer : List Span
  deriving DecidableEq, Repr

namespace Scope

def rootName : String := "workflow"

def ofOptions (o : TraceOptions) (root : Span) : Scope :=
  let root := if o.skipRootSpan then none else some root
  ⟨o, root, root.map Span.id, []⟩

def adopt (s : Scope) (x : Span) : Span := { x with parentId := x.parentId <|> s.rootId }

def record (s : Scope) (x : Span) : Scope := { s with buffer := s.buffer ++ [s.adopt x] }

/-- What a flush hands over: the root, if it was not handed over before, and the spans recorded
since. Spans still open end now. -/
def due (s : Scope) (now : Int64) : List Span :=
  (s.root.toList ++ s.buffer).map (Span.finish now)

def drained (s : Scope) : Scope := { s with root := none, buffer := [] }

def batch (s : Scope) (now : Int64) : SpanBatch := ⟨s.options.traceId, s.options.metadata, s.due now⟩

def flushBuffered (t : Tracer) (s : Scope) (now : Int64) : Except Error Unit × List Effect :=
  if (s.due now).isEmpty then (.ok (), [.note .noSpans])
  else if s.options.apiKey = "" then (.ok (), [.note .keyMissing])
  else
    let b := s.batch now
    (t.sent b s.options.apiKey, [.note .sendingSpans, .batchSent b s.options.apiKey])

def flush (t : Tracer) (s : Scope) (now : Int64) : Except Error Unit × List Effect × Scope :=
  match t.keeping with
  | .buffered =>
    let (result, effects) := s.flushBuffered t now
    (result, .scopeFlushed s.options :: effects, s.drained)
  | _ => (t.flushed s.options, [.scopeFlushed s.options], s)

end Scope

namespace Tracer

def openEffects (t : Tracer) (o : TraceOptions) : List Effect :=
  .scopeOpened o :: (if t.keeping = .buffered then [.note .scopeOpened] else [])

def openScope (t : Tracer) (o : TraceOptions) (root : Span) : Except Error Scope × List Effect :=
  match t.opens o with
  | .ok () => (.ok (Scope.ofOptions o root), t.openEffects o)
  | .error e => (.error e, [])

def record (t : Tracer) (s : Scope) (x : Span) : Scope × List Effect :=
  match t.keeping with
  | .forgotten => (s, [])
  | .shared => (s, [.spanKept x])
  | .buffered => (s.record x, [])

end Tracer

end NodeRun
