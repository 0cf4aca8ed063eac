import NodeRun.Backend.Reply
import NodeRun.Model.Completion

namespace NodeRun

structure CannedModel where
  name : String
  outputs : Table Json
  cost : Option Real64
  failure : Option String
  delay : Nat
  deriving DecidableEq, Repr

namespace CannedModel

def named (name : String) : CannedModel := ⟨name, ∅, none, none, 0⟩

def slotAnswer (inputs : Table Json) (s : SchemaSlot) : Json :=
  .str (s.name ++ " for " ++ (Json.ofTable inputs).compact)

def answer (m : CannedModel) (r : CompletionRequest) : Completion :=
  { outputs :=
      if m.outputs.isEmpty then
        Table.ofList (r.schema.outputs.map (fun s => (s.name, slotAnswer r.inputs s)))
      else m.outputs
    usage := some ⟨some 10, some 5, m.cost⟩ }

def cacheKey (r : CompletionRequest) : String :=
  r.schema.name ++ ":" ++ (Json.ofTable r.inputs).compact

end CannedModel

structure ScriptedModel where
  name : String
  delay : Nat → Nat
  reply : Nat → CompletionRequest → InvocationSettings → Reply Completion

namespace ScriptedModel

def ofScript (name : String) (script : List (Nat × Reply Completion)) : ScriptedModel :=
  let entry (n : Nat) : Nat × Reply Completion :=
    (script[n]? <|> script.getLast?).getD (0, .ok ⟨∅, none⟩)
  ⟨name, fun n => (entry n).1, fun n _ _ => (entry n).2⟩

end ScriptedModel

inductive ModelSource where
  | canned (model : CannedModel)
  | scripted (model : ScriptedModel)

namespace ModelSource

def name : ModelSource → String
  | canned m => m.name
  | scripted m => m.name

end ModelSource

structure LanguageModel where
  source : ModelSource
  calls : Nat
  cache : Table Completion

namespace LanguageModel

def ofSource (s : ModelSource) : LanguageModel := ⟨s, 0, ∅⟩

def name (m : LanguageModel) : String := m.source.name

inductive Asked where
  | cached (completion : Completion)
  | waiting (delay call : Nat)
  deriving DecidableEq, Repr

def cached? (m : LanguageModel) (r : CompletionRequest) (s : InvocationSettings) :
    Option Completion :=
  match m.source with
  | .canned _ => if s.cacheEnabled then m.cache.get? (CannedModel.cacheKey r) else none
  | .scripted _ => none

def delay (m : LanguageModel) : Nat :=
  match m.source with
  | .canned c => c.delay
  | .scripted c => c.delay m.calls

def ask (m : LanguageModel) (r : CompletionRequest) (s : InvocationSettings) :
    Asked × LanguageModel :=
  match m.cached? r s with
  | some c => (.cached c, m)
  | none => (.waiting m.delay m.calls, { m with calls := m.calls + 1 })

def answer (m : LanguageModel) (call : Nat) (r : CompletionRequest) (s : InvocationSettings) :
    Reply Completion × LanguageModel :=
  match m.source with
  | .scripted c => (c.reply call r s, m)
  | .canned c =>
    match c.failure with
    | some f => (.error (.invocation (.reported f)), m)
    | none =>
      let answer := c.answer r
      (.ok answer,
        if s.cacheEnabled then { m with cache := m.cache.insert (CannedModel.cacheKey r) answer }
        else m)

def resolve (m : LanguageModel) (asked : Asked) (r : CompletionRequest) (s : InvocationSettings) :
    Reply Completion × LanguageModel :=
  match asked with
  | .cached c => (.ok c, m)
  | .waiting _ call => m.answer call r s

def complete (m : LanguageModel) (r : CompletionRequest) (s : InvocationSettings) :
    Reply Completion × LanguageModel :=
  let (asked, m) := m.ask r s
  m.resolve asked r s

/-- The model at a place; a place that was never filled holds a canned model without a name. -/
def atPlace (models : List LanguageModel) (i : Nat) : LanguageModel :=
  models[i]?.getD (ofSource (.canned (.named "")))

end LanguageModel

structure ModelRef where
  index : Nat
  name : String
  deriving DecidableEq, Repr

end NodeRun
