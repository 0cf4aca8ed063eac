import NodeRun.Module.Compiler
import NodeRun.Proofs.Schema

namespace NodeRun

namespace ModelChoice

structure Nameless (c : ModelChoice) : Prop where
  model : ∀ name, c.model = some name → name = ""
  params : ∀ params name, c.params = some params → params.get? "model" = some name → name = ""

end ModelChoice

namespace ModelConfig

variable {c : ModelChoice}

theorem ofChoice_of_nameless (h : c.Nameless) :
    ofChoice c = .error (.configuration .modelMissing) := by
  have hname (name : String) (hn : ((c.params.getD ∅).get? "model" <|> c.model) = some name) :
      name = "" := by
    cases hm : (c.params.getD ∅).get? "model" with
    | none => exact h.model name (by simpa [hm] using hn)
    | some x =>
      rw [hm] at hn
      cases hn
      cases hp : c.params with
      | none =>
        rw [hp] at hm
        cases hm
      | some params =>
        rw [hp] at hm
        exact h.params params name hp hm
  have hnone : ((c.params.getD ∅).get? "model" <|> c.model).filter (fun m => m ≠ "") = none := by
    rw [Option.filter_eq_none_iff]
    exact fun name hn => by simp [hname name hn]
  simp only [ofChoice, hnone]

theorem error_of_ofChoice {e : Error} (h : ofChoice c = .error e) :
    e = .configuration .modelMissing := by
  unfold ofChoice at h
  simp only at h
  split at h
  · cases h
    rfl
  · cases h

end ModelConfig

theorem Schema.error_of_ofSignature {s : Signature} {e : Error} (h : ofSignature s = .error e) :
    ∃ f, e = .configuration f := by
  have hd : ¬ Distinct s := by
    intro hd
    rw [ofSignature_of_distinct hd] at h
    cases h
  obtain ⟨f, -, -, hf⟩ := ofSignature_of_ambiguous hd
  exact ⟨f, Except.error.inj (h.symm.trans hf)⟩

/-- What is done besides writing to the log. -/
def Effect.calls (es : List Effect) : List Effect := es.filter (fun e => e.notice?.isNone)

namespace Compiler

inductive Refuses (c : Compiler) (w : Workflow) : NodeKind → Error → Prop where
  | schema {s : Signature} {e : Error} (h : Schema.ofSignature s = .error e) :
    Refuses c w (.signature s) e
  | model {s : Signature} {schema : Schema} {e : Error} (hs : Schema.ofSignature s = .ok schema)
    (h : ModelConfig.ofChoice (choice s w) = .error e) : Refuses c w (.signature s) e
  | retrieverClass {r : Retriever} (h : nonEmpty r.cls = none) :
    Refuses c w (.retriever r) (.configuration .retrieverClassMissing)
  | retrieverUnknown {r : Retriever} {cls : String} (hn : nonEmpty r.cls = some cls)
    (h : c.retrievers.get? cls = none) :
    Refuses c w (.retriever r) (.configuration (.retrieverClassUnknown cls c.retrievers.keys))
  | retrieverSettings {r : Retriever} {cls : String} {factory : BackendFactory} {e : Error}
    (hn : nonEmpty r.cls = some cls) (hf : c.retrievers.get? cls = some factory)
    (h : Field.coerceAll r.component.parameterFields = .error e) : Refuses c w (.retriever r) e
  | evaluatorClass {v : Evaluator} (h : nonEmpty v.cls = none) :
    Refuses c w (.evaluator v) (.configuration .evaluatorClassMissing)
  | evaluatorUnknown {v : Evaluator} {cls : String} (hn : nonEmpty v.cls = some cls)
    (hh : cls ≠ hostedClass) (h : c.evaluators.get? cls = none) :
    Refuses c w (.evaluator v) (.configuration (.evaluatorClassUnknown cls))
  | evaluatorId {v : Evaluator} (hn : nonEmpty v.cls = some hostedClass)
    (h : nonEmpty v.evaluator = none) :
    Refuses c w (.evaluator v) (.configuration .evaluatorIdMissing)
  | evaluation {v : Evaluator} {id : String} (hn : nonEmpty v.cls = some hostedClass)
    (hi : nonEmpty v.evaluator = some id) (h : c.evaluation = none) :
    Refuses c w (.evaluator v) (.configuration .evaluationUnavailable)
  | evaluatorSettings {v : Evaluator} {id : String} {client : EvaluationClient} {e : Error}
    (hn : nonEmpty v.cls = some hostedClass) (hi : nonEmpty v.evaluator = some id)
    (hc : c.evaluation = some client)
    (h : Field.coerceAll v.component.parameterFields = .error e) : Refuses c w (.evaluator v) e
  | unsupported (type : String) (data : Json) :
    Refuses c w (.unsupported type data) (.unsupportedNodeType type)

inductive Asks (c : Compiler) (w : Workflow) : NodeKind → Effect → Reply Module → Prop where
  | provider {s : Signature} {schema : Schema} {config : ModelConfig}
    (hs : Schema.ofSignature s = .ok schema)
    (hc : ModelConfig.ofChoice (choice s w) = .ok config) :
    Asks c w (.signature s) (.modelWanted config)
      ((c.provider config).map fun model => .predict (.new schema model (demos s)))
  | factory {r : Retriever} {cls : String} {factory : BackendFactory} {settings : Settings}
    (hn : nonEmpty r.cls = some cls) (hf : c.retrievers.get? cls = some factory)
    (hs : Field.coerceAll r.component.parameterFields = .ok settings) :
    Asks c w (.retriever r) (.backendWanted cls settings)
      ((factory settings).map fun b => .contexts (.new (r.component.name.getD cls) b settings))
  | constructor {v : Evaluator} {cls : String} {built : Reply LocalEvaluator}
    (hn : nonEmpty v.cls = some cls) (hh : cls ≠ hostedClass)
    (hb : c.evaluators.get? cls = some built) :
    Asks c w (.evaluator v) (.evaluatorWanted cls) (built.map .evaluator)

inductive Makes (c : Compiler) (w : Workflow) : NodeKind → Module → Prop where
  | hosted {v : Evaluator} {id : String} {client : EvaluationClient} {settings : Settings}
    (hn : nonEmpty v.cls = some hostedClass) (hi : nonEmpty v.evaluator = some id)
    (hc : c.evaluation = some client)
    (hs : Field.coerceAll v.component.parameterFields = .ok settings) :
    Makes c w (.evaluator v)
      (.hosted ⟨(nonEmpty v.component.name).getD hostedClass, id, w.apiKey, settings, client⟩)
  | terminal (t : Terminal) : Makes c w (.terminal t) .terminal

inductive Compiles (c : Compiler) (w : Workflow) (k : NodeKind) : Compiled → Prop where
  | refused {e : Error} (h : c.Refuses w k e) : Compiles c w k (.error e, [])
  | asked {call : Effect} {reply : Reply Module} {notes : List Notice} (h : c.Asks w k call reply)
    (hn : ∀ x ∈ notes, x = .signatureCompiled) : Compiles c w k (reply, call :: notes.map .note)
  | made {m : Module} (h : c.Makes w k m) : Compiles c w k (.ok m, [])

section

variable {c : Compiler} {w : Workflow}

theorem compiles_signature (s : Signature) :
    c.Compiles w (.signature s) (c.compileSignature s w) := by
  unfold compileSignature
  cases hs : Schema.ofSignature s with
  | error e => exact .refused (.schema hs)
  | ok schema =>
    cases hc : ModelConfig.ofChoice (choice s w) with
    | error e => exact .refused (.model hs hc)
    | ok config =>
      have hasks : c.Asks w (.signature s) (.modelWanted config) _ := .provider hs hc
      simp only
      cases hp : c.provider config with
      | ok model =>
        rw [hp] at hasks
        exact .asked hasks (List.forall_mem_singleton.mpr rfl)
      | error e =>
        rw [hp] at hasks
        exact .asked hasks (List.forall_mem_nil _)
      | panic m =>
        rw [hp] at hasks
        exact .asked hasks (List.forall_mem_nil _)

theorem compiles_retriever (r : Retriever) :
    c.Compiles w (.retriever r) (c.compileRetriever r) := by
  unfold compileRetriever
  cases hn : nonEmpty r.cls with
  | none => exact .refused (.retrieverClass hn)
  | some cls =>
    simp only
    cases hf : c.retrievers.get? cls with
    | none => exact .refused (.retrieverUnknown hn hf)
    | some factory =>
      cases hs : Field.coerceAll r.component.parameterFields with
      | error e => exact .refused (.retrieverSettings hn hf hs)
      | ok settings => exact .asked (.factory hn hf hs) (List.forall_mem_nil _)

theorem compiles_hosted {v : Evaluator} (hn : nonEmpty v.cls = some hostedClass) :
    c.Compiles w (.evaluator v) (c.compileHosted v w) := by
  unfold compileHosted
  cases hi : nonEmpty v.evaluator with
  | none => exact .refused (.evaluatorId hn hi)
  | some id =>
    cases hc : c.evaluation with
    | none => exact .refused (.evaluation hn hi hc)
    | some client =>
      cases hs : Field.coerceAll v.component.parameterFields with
      | error e => exact .refused (.evaluatorSettings hn hi hc hs)
      | ok settings => exact .made (.hosted hn hi hc hs)

theorem compiles_evaluator (v : Evaluator) :
    c.Compiles w (.evaluator v) (c.compileEvaluator v w) := by
  unfold compileEvaluator
  cases hn : nonEmpty v.cls with
  | none => exact .refused (.evaluatorClass hn)
  | some cls =>
    by_cases hh : cls = hostedClass
    · subst hh
      exact compiles_hosted hn
    · simp only [if_neg hh]
      cases hb : c.evaluators.get? cls with
      | none => exact .refused (.evaluatorUnknown hn hh hb)
      | some built => exact .asked (.constructor hn hh hb) (List.forall_mem_nil _)

theorem compiles (c : Compiler) (w : Workflow) (k : NodeKind) :
    c.Compiles w k (c.compileKind w k) := by
  cases k with
  | signature s => exact compiles_signature s
  | retriever r => exact compiles_retriever r
  | evaluator v => exact compiles_evaluator v
  | terminal t => exact .made (.terminal t)
  | unsupported type data => exact .refused (.unsupported type data)

inductive Returns (c : Compiler) (e : Error) : Effect → Prop where
  | provider {config : ModelConfig} (h : c.provider config = .error e) :
    Returns c e (.modelWanted config)
  | factory {cls : String} {factory : BackendFactory} {settings : Settings}
    (hf : c.retrievers.get? cls = some factory) (h : factory settings = .error e) :
    Returns c e (.backendWanted cls settings)
  | constructor {cls : String} (h : c.evaluators.get? cls = some (.error e)) :
    Returns c e (.evaluatorWanted cls)

inductive Misconfigured (c : Compiler) (w : Workflow) : NodeKind → Prop where
  | retriever {r : Retriever}
    (h : ∀ cls, r.cls = some cls → cls = "" ∨ c.retrievers.get? cls = none) :
    Misconfigured c w (.retriever r)
  | evaluator {v : Evaluator}
    (h : ∀ cls, v.cls = some cls → cls = "" ∨ cls ≠ hostedClass ∧ c.evaluators.get? cls = none) :
    Misconfigured c w (.evaluator v)
  | hostedId {v : Evaluator} (hc : v.cls = some hostedClass)
    (h : ∀ id, v.evaluator = some id → id = "") : Misconfigured c w (.evaluator v)
  | hostedClient {v : Evaluator} (hc : v.cls = some hostedClass) (h : c.evaluation = none) :
    Misconfigured c w (.evaluator v)
  | model {s : Signature} (h : (choice s w).Nameless) : Misconfigured c w (.signature s)

variable {k : NodeKind} {x : Compiled} {call : Effect} {reply : Reply Module} {e : Error}
  {m : Module}

theorem Asks.notice?_eq (h : c.Asks w k call reply) : call.notice? = none := by
  cases h <;> rfl

theorem Asks.eq_error_iff (h : c.Asks w k call reply) : reply = .error e ↔ c.Returns e call := by
  cases h with
  | provider hs hc =>
    rw [Reply.map_eq_error_iff]
    exact ⟨.provider, fun | .provider h => h⟩
  | factory hn hf hs =>
    rw [Reply.map_eq_error_iff]
    refine ⟨.factory hf, fun | .factory hf' h => ?_⟩
    cases hf.symm.trans hf'
    exact h
  | constructor hn hh hb =>
    rw [Reply.map_eq_error_iff]
    refine ⟨fun h => .constructor (h ▸ hb), fun | .constructor h => ?_⟩
    exact Option.some.inj (hb.symm.trans h)

theorem nonEmpty_eq_some {s : Option String} {x : String} (h : nonEmpty s = some x) :
    s = some x ∧ x ≠ "" := by
  obtain ⟨hs, hx⟩ := Option.filter_eq_some_iff.mp h
  exact ⟨hs, by simpa using hx⟩

theorem Misconfigured.unregistered {r : Retriever} {cls : String}
    (h : c.Misconfigured w (.retriever r)) (hn : nonEmpty r.cls = some cls) :
    c.retrievers.get? cls = none := by
  obtain ⟨hcls, hne⟩ := nonEmpty_eq_some hn
  cases h with
  | retriever h => exact (h cls hcls).resolve_left hne

theorem Misconfigured.unknown {v : Evaluator} {cls : String}
    (h : c.Misconfigured w (.evaluator v)) (hn : nonEmpty v.cls = some cls)
    (hh : cls ≠ hostedClass) : c.evaluators.get? cls = none := by
  obtain ⟨hcls, hne⟩ := nonEmpty_eq_some hn
  cases h with
  | evaluator h => exact ((h cls hcls).resolve_left hne).2
  | hostedId hc _ => exact absurd (Option.some.inj (hcls.symm.trans hc)) hh
  | hostedClient hc _ => exact absurd (Option.some.inj (hcls.symm.trans hc)) hh

theorem Misconfigured.unhosted {v : Evaluator} {id : String} (h : c.Misconfigured w (.evaluator v))
    (hn : nonEmpty v.cls = some hostedClass) (hi : nonEmpty v.evaluator = some id) :
    c.evaluation = none := by
  obtain ⟨hcls, hne⟩ := nonEmpty_eq_some hn
  obtain ⟨hid, hide⟩ := nonEmpty_eq_some hi
  cases h with
  | evaluator h => exact absurd rfl ((h _ hcls).resolve_left hne).1
  | hostedId _ h => exact absurd (h id hid) hide
  | hostedClient _ h => exact h

theorem Misconfigured.not_asks (h : c.Misconfigured w k) : ¬ c.Asks w k call reply := by
  intro ha
  cases ha with
  | provider hs hc =>
    cases h with
    | model h =>
      rw [ModelConfig.ofChoice_of_nameless h] at hc
      cases hc
  | factory hn hf hs => cases hf.symm.trans (h.unregistered hn)
  | constructor hn hh hb => cases hb.symm.trans (h.unknown hn hh)

theorem Misconfigured.not_makes (h : c.Misconfigured w k) : ¬ c.Makes w k m := by
  intro hm
  cases hm with
  | hosted hn hi hc hs => cases hc.symm.trans (h.unhosted hn hi)
  | terminal t => cases h

theorem Misconfigured.refused (h : c.Misconfigured w k) (hr : c.Refuses w k e) :
    ∃ f, e = .configuration f := by
  cases hr with
  | schema hs => exact Schema.error_of_ofSignature hs
  | model hs hc => exact ⟨_, ModelConfig.error_of_ofChoice hc⟩
  | retrieverSettings hn hf hs => cases hf.symm.trans (h.unregistered hn)
  | evaluatorSettings hn hi hc hs => cases hc.symm.trans (h.unhosted hn hi)
  | unsupported type data => cases h
  | _ => exact ⟨_, rfl⟩

theorem Asks.calls_eq (h : c.Asks w k call reply) (notes : List Notice) :
    Effect.calls (call :: notes.map .note) = [call] := by
  have hnotes : Effect.calls (notes.map .note) = [] := by
    refine List.filter_eq_nil_iff.mpr (List.forall_mem_map.mpr fun x _ => ?_)
    exact Bool.false_ne_true
  rw [Effect.calls, List.filter_cons_of_pos (by rw [h.notice?_eq]; rfl)]
  exact congrArg _ hnotes

theorem Compiles.calls_of_error (h : c.Compiles w k x) (hx : x.1 = .error e)
    (hr : ∀ call ∈ Effect.calls x.2, ¬ c.Returns e call) : Effect.calls x.2 = [] := by
  cases h with
  | refused h => rfl
  | made h => rfl
  | asked h =>
    rw [h.calls_eq] at hr
    exact absurd (h.eq_error_iff.mp hx) (hr _ List.mem_cons_self)

theorem Compiles.calls_of_ok (h : c.Compiles w k x) (hx : x.1 = .ok m) :
    (Effect.calls x.2 = [] ∧ c.Makes w k m) ∨
      ∃ call, Effect.calls x.2 = [call] ∧ c.Asks w k call (.ok m) := by
  cases h with
  | refused h => cases hx
  | made h =>
    cases hx
    exact .inl ⟨rfl, h⟩
  | asked h =>
    cases hx
    exact .inr ⟨_, h.calls_eq _, h⟩

theorem Compiles.of_returns (h : c.Compiles w k x) (hcall : call ∈ Effect.calls x.2)
    (hr : c.Returns e call) : Effect.calls x.2 = [call] ∧ x.1 = .error e := by
  cases h with
  | refused h => cases hcall
  | made h => cases hcall
  | asked h =>
    rw [h.calls_eq] at hcall ⊢
    cases List.mem_singleton.mp hcall
    exact ⟨rfl, h.eq_error_iff.mpr hr⟩

theorem Compiles.of_misconfigured (h : c.Compiles w k x) (hk : c.Misconfigured w k) :
    Effect.calls x.2 = [] ∧ ∃ f, x.1 = .error (.configuration f) := by
  cases h with
  | refused h =>
    obtain ⟨f, rfl⟩ := hk.refused h
    exact ⟨rfl, f, rfl⟩
  | asked h => exact absurd h hk.not_asks
  | made h => exact absurd h hk.not_makes

theorem compile_calls (c : Compiler) (n : Node) (w : Workflow) :
    let calls := Effect.calls (c.compile n w).2
    (∀ e, (c.compile n w).1 = .error e → (∀ call ∈ calls, ¬ c.Returns e call) → calls = []) ∧
    (∀ m, (c.compile n w).1 = .ok m →
      (calls = [] ∧ c.Makes w n.kind m) ∨ ∃ call, calls = [call] ∧ c.Asks w n.kind call (.ok m)) ∧
    (∀ call ∈ calls, ∀ e, c.Returns e call → calls = [call] ∧ (c.compile n w).1 = .error e) ∧
    (c.Misconfigured w n.kind →
      calls = [] ∧ ∃ f, (c.compile n w).1 = .error (.configuration f)) := by
  have h := c.compiles w n.kind
  exact ⟨fun e he => h.calls_of_error he, fun m hm => h.calls_of_ok hm,
    fun call hcall e hr => h.of_returns hcall hr, h.of_misconfigured⟩

end

def unserved : Compiler :=
  { provider := fun _ => .error (.tracing "down")
    retrievers := ∅
    evaluators := .ofList [("Exact", .ok ⟨"Exact", false, fun _ _ => .ok (.ofOutputs ∅)⟩)]
    evaluation := none }

def judging (cls : String) : Node := ⟨"e", .evaluator ⟨.unset, some cls, none⟩⟩

theorem compile_calls_unserved :
    let w := Workflow.new "w" (.named "m")
    let asking : Node := ⟨"s", .signature (Schema.between [.named "q" .str] [.named "a" .str])⟩
    (∃ call, Effect.calls (unserved.compile asking w).2 = [call] ∧
      (unserved.compile asking w).1 = .error (.tracing "down")) ∧
    (∃ call m, Effect.calls (unserved.compile (judging "Exact") w).2 = [call] ∧
      unserved.Asks w (judging "Exact").kind call (.ok m)) ∧
    (Effect.calls (unserved.compile (judging "Other") w).2 = [] ∧
      ∃ f, (unserved.compile (judging "Other") w).1 = .error (.configuration f)) ∧
    Effect.calls (unserved.compile ⟨"x", .unsupported "entry" .null⟩ w).2 = [] := by
  intro w asking
  have hcalls : ∃ config, Effect.calls (unserved.compile asking w).2 = [.modelWanted config] :=
    ⟨_, rfl⟩
  obtain ⟨config, hcalls⟩ := hcalls
  have hdown : unserved.Returns (.tracing "down") (.modelWanted config) := .provider rfl
  have hpassed := (compile_calls unserved asking w).2.2.1 (.modelWanted config)
    (hcalls ▸ List.mem_cons_self) _ hdown
  have hother : unserved.Misconfigured w (judging "Other").kind := by
    refine .evaluator ?_
    rintro cls ⟨⟩
    exact .inr ⟨by decide, rfl⟩
  have hunknown := (compile_calls unserved ⟨"x", .unsupported "entry" .null⟩ w).1 _ rfl
    (List.forall_mem_nil _)
  refine ⟨⟨_, hpassed⟩, ?_, (compile_calls unserved (judging "Other") w).2.2.2 hother, hunknown⟩
  rcases (compile_calls unserved (judging "Exact") w).2.1 _ rfl with ⟨hcalls, -⟩ | ⟨call, hcalls, h⟩
  · cases hcalls
  · exact ⟨call, _, hcalls, h⟩

end Compiler

end NodeRun
