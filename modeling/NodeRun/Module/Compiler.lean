import NodeRun.Module.Basic
import NodeRun.Workflow.Basic

namespace NodeRun

abbrev BackendFactory := Settings → Reply Backend

structure Compiler where
  provider : ModelConfig → Reply ModelRef
  retrievers : Table BackendFactory
  evaluators : Table (Reply LocalEvaluator)
  evaluation : Option EvaluationClient

abbrev Compiled := Reply Module × List Effect

namespace Compiler

def nonEmpty (s : Option String) : Option String := s.filter (fun x => x ≠ "")

def fail (f : ConfigurationFault) : Compiled := (.error (.configuration f), [])

def choice (s : Signature) (w : Workflow) : ModelChoice := s.llm.getD w.defaultModel

def demos (s : Signature) : List (Table Json) :=
  ((s.demonstrations.bind Dataset.inline).map InlineDataset.examples).getD []

def compileSignature (c : Compiler) (s : Signature) (w : Workflow) : Compiled :=
  match Schema.ofSignature s with
  | .error e => (.error e, [])
  | .ok schema =>
    match ModelConfig.ofChoice (choice s w) with
    | .error e => (.error e, [])
    | .ok config =>
      match c.provider config with
      | .ok model => (.ok (.predict (.new schema model (demos s))),
          [.modelWanted config, .note .signatureCompiled])
      | .error e => (.error e, [.modelWanted config])
      | .panic m => (.panic m, [.modelWanted config])

def compileRetriever (c : Compiler) (r : Retriever) : Compiled :=
  match nonEmpty r.cls with
  | none => fail .retrieverClassMissing
  | some cls =>
    match c.retrievers.get? cls with
    | none => fail (.retrieverClassUnknown cls c.retrievers.keys)
    | some factory =>
      match Field.coerceAll r.component.parameterFields with
      | .error e => (.error e, [])
      | .ok settings =>
        ((factory settings).map
            (fun b => .contexts (.new (r.component.name.getD cls) b settings)),
          [.backendWanted cls settings])

def compileHosted (c : Compiler) (e : Evaluator) (w : Workflow) : Compiled :=
  match nonEmpty e.evaluator with
  | none => fail .evaluatorIdMissing
  | some id =>
    match c.evaluation with
    | none => fail .evaluationUnavailable
    | some client =>
      match Field.coerceAll e.component.parameterFields with
      | .error e => (.error e, [])
      | .ok settings =>
        (.ok (.hosted ⟨(nonEmpty e.component.name).getD hostedClass, id, w.apiKey, settings,
          client⟩), [])

def compileEvaluator (c : Compiler) (e : Evaluator) (w : Workflow) : Compiled :=
  match nonEmpty e.cls with
  | none => fail .evaluatorClassMissing
  | some cls =>
    if cls = hostedClass then c.compileHosted e w
    else
      match c.evaluators.get? cls with
      | none => fail (.evaluatorClassUnknown cls)
      | some built => (built.map .evaluator, [.evaluatorWanted cls])

def compileKind (c : Compiler) (w : Workflow) : NodeKind → Compiled
  | .signature s => c.compileSignature s w
  | .retriever r => c.compileRetriever r
  | .evaluator e => c.compileEvaluator e w
  | .terminal _ => (.ok .terminal, [])
  | .unsupported type _ => (.error (.unsupportedNodeType type), [])

def compile (c : Compiler) (n : Node) (w : Workflow) : Compiled :=
  let (result, effects) := c.compileKind w n.kind
  (result, .note .compiling :: effects)

def shownNames (names : List String) : String :=
  "Registry \x7b names: [" ++ String.intercalate ", " (names.map Text.quoted) ++ "] \x7d"

def shownBool (b : Bool) : String := if b then "true" else "false"

def shown (c : Compiler) : String :=
  "NodeCompiler \x7b retrievers: " ++ shownNames c.retrievers.keys ++ ", evaluators: " ++
    shownNames c.evaluators.keys ++ ", evaluation: " ++ shownBool c.evaluation.isSome ++
    ", .. \x7d"

end Compiler

end NodeRun
