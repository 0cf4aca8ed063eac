import NodeRun.Module.Invocation

namespace NodeRun

structure Forwarded where
  result : Reply Prediction
  span : Option Span
  models : List LanguageModel
  effects : List Effect
  moment : Moment

namespace Moment

def after (m : Moment) (ms : Nat) : Moment := ⟨m.now + Int64.ofNat ms, m.serial + 1⟩

end Moment

namespace Module

def forward (c : InvocationContext) (m : Moment) (models : List LanguageModel) (module : Module)
    (inputs : Table Json) : Forwarded :=
  match Invocation.begin c m models module inputs with
  | (.finished result, models, es) => ⟨.ofExcept result, none, models, es, m.after 0⟩
  | (.pending call, models, es) =>
    let m := m.after call.delay
    let (result, span, models) := call.finish c m models
    ⟨result, span, models, es, m.after 0⟩

end Module

end NodeRun
