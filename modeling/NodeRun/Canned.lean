import NodeRun.Module.Basic
import NodeRun.Trace.Scope

namespace NodeRun

namespace Backend

def samplePassages : List Passage :=
  ["Rust is a systems programming language.",
   "Rust guarantees memory safety without a garbage collector.",
   "Cargo is the Rust package manager.",
   "Crates are published to crates.io."].map Passage.ofText

def sample : Backend := fixed samplePassages

end Backend

namespace LocalEvaluator

def passing : LocalEvaluator :=
  ⟨"MockEvaluator", false, fun _ _ =>
    .ok (.ofOutputs (Table.ofList [("passed", .bool true), ("score", .real (.ofInt 1))]))⟩

end LocalEvaluator

namespace EvaluationResult

def passing : EvaluationResult :=
  ⟨.processed, some (.ofInt 1), some true, none, none, none⟩

end EvaluationResult

namespace EvaluationClient

def fixed (r : EvaluationResult) : EvaluationClient := ⟨fun _ _ => .ok r⟩

end EvaluationClient

namespace LanguageModel

def standardName : String := "openai/gpt-4o-mini"

def unchosen : LanguageModel := ofSource (.canned (.named "mock/model"))

end LanguageModel

namespace Tracer

def shared (flushed : TraceOptions → Except Error Unit) : Tracer :=
  { noop with keeping := .shared, flushed := flushed }

def collectorDown : Error := .tracing "collector unavailable"

def buffered (sent : SpanBatch → String → Except Error Unit) : Tracer :=
  { noop with keeping := .buffered, sent := sent }

def refusing (e : Error) : Tracer := { noop with opens := fun _ => .error e }

end Tracer

end NodeRun
