import NodeRun.Module.Invocation
import NodeRun.Trace.Scope

namespace NodeRun

structure Site where
  now : Nat
  serial : Nat
  models : List LanguageModel
  scopes : List Scope
  journal : List (Option Nat × Effect)

namespace Site

def start : Int := 1700000000000

def ofModels (models : List LanguageModel) : Site := ⟨0, 0, models, [], []⟩

def time (s : Site) : Int64 := Int64.ofInt (start + s.now)

def moment (s : Site) : Moment := ⟨s.time, s.serial⟩

def tick (s : Site) : Site := { s with serial := s.serial + 1 }

def emit (s : Site) (who : Option Nat) (es : List Effect) : Site :=
  { s with journal := s.journal ++ es.map (fun e => (who, e)) }

def effects (s : Site) : List Effect := s.journal.map Prod.snd

def effectsOf (s : Site) (id : Nat) : List Effect :=
  s.journal.filterMap (fun e => if e.1 = some id then some e.2 else none)

def openScope (s : Site) (t : Tracer) (who : Option Nat) (o : TraceOptions) :
    Except Error Nat × Site :=
  match t.openScope o (s.moment.startSpan .span Scope.rootName) with
  | (.ok scope, es) =>
    (.ok s.scopes.length, (({ s with scopes := s.scopes ++ [scope] } : Site).tick).emit who es)
  | (.error e, es) => (.error e, s.tick.emit who es)

def record (s : Site) (t : Tracer) (who : Option Nat) (place : Nat) (x : Span) : Site :=
  match s.scopes[place]? with
  | some scope =>
    let (scope, es) := t.record scope x
    ({ s with scopes := s.scopes.set place scope } : Site).emit who es
  | none => s

def flush (s : Site) (t : Tracer) (who : Option Nat) (place : Nat) : Except Error Unit × Site :=
  match s.scopes[place]? with
  | some scope =>
    let (result, es, scope) := scope.flush t s.time
    (result, ({ s with scopes := s.scopes.set place scope } : Site).emit who es)
  | none => (.ok (), s)

end Site

/-- A scope that may be open. Flushing it cannot fail: a failure is noted in the log. -/
abbrev Guard := Option Nat

namespace Guard

def openScope (s : Site) (t : Tracer) (who : Option Nat) (wanted : Bool) (o : TraceOptions) :
    Except Error Guard × Site :=
  if wanted then
    let (r, s) := s.openScope t who o
    (r.map some, s)
  else (.ok none, s)

def panic? (g : Guard) (s : Site) (t : Tracer) (call : TraceOptions → TracerCall) :
    Option String :=
  (g.bind (fun place => s.scopes[place]?)).bind (fun scope => t.panic? (call scope.options))

def finish (g : Guard) (s : Site) (t : Tracer) (who : Option Nat) : Bool × Site :=
  match g with
  | none => (false, s)
  | some place =>
    match s.flush t who place with
    | (.ok (), s) => (true, s)
    | (.error _, s) => (true, s.emit who [.note .flushFailed])

def shown (g : Guard) (s : Site) : String :=
  match g.bind (fun place => s.scopes[place]?) with
  | some scope => "TraceGuard::Active(" ++ Text.quoted scope.options.traceId ++ ")"
  | none => "TraceGuard::Inactive"

end Guard

end NodeRun
