import NodeRun.Proofs.Compilation

namespace NodeRun

namespace Component

def parameterNames (c : Component) : List String := c.parameterFields.map Field.identifier

structure Unambiguous (c : Component) : Prop where
  inputs : c.inputNames.Nodup
  outputs : c.outputNames.Nodup
  parameters : c.parameterNames.Nodup

end Component

theorem Field.coerceAll_of_repeated {fs : List Field} (h : ¬ (fs.map identifier).Nodup) :
    ∃ i, coerceAll fs = .error (.configuration (.duplicateParameter i)) := by
  cases hr : repeated? (fs.map identifier) with
  | none => exact absurd (repeated?_eq_none_iff.mp hr) h
  | some i => exact ⟨i, by simp [coerceAll, hr]⟩

theorem Field.nodup_of_coerceAll {fs : List Field} {settings : Settings}
    (h : coerceAll fs = .ok settings) : (fs.map identifier).Nodup := by
  refine Classical.byContradiction fun hfs => ?_
  obtain ⟨i, hi⟩ := coerceAll_of_repeated hfs
  cases hi.symm.trans h

namespace NodeKind

structure Unambiguous (k : NodeKind) : Prop where
  lists : ∀ c ∈ k.component?, c.Unambiguous
  apart : ∀ s, k = .signature s → ∀ i ∈ s.component.outputNames, i ∉ s.component.inputNames

def Checked : NodeKind → Prop
  | signature s => Schema.Distinct s
  | retriever r => r.component.parameterNames.Nodup
  | evaluator e => e.cls = some hostedClass → e.component.parameterNames.Nodup
  | terminal _ => True
  | unsupported _ _ => True

theorem Unambiguous.checked {k : NodeKind} (h : k.Unambiguous) : k.Checked := by
  cases k with
  | signature s =>
    exact ⟨(h.lists _ rfl).inputs, (h.lists _ rfl).outputs, h.apart s rfl⟩
  | retriever r => exact (h.lists _ rfl).parameters
  | evaluator e => exact fun _ => (h.lists _ rfl).parameters
  | terminal t => trivial
  | unsupported type data => trivial

def refield (ins outs params : Option (List Field)) : NodeKind → NodeKind
  | signature s => signature { s with component := { s.component with parameters := params } }
  | retriever r =>
    retriever { r with component := { r.component with inputs := ins, outputs := outs } }
  | evaluator e =>
    evaluator
      { e with
        component :=
          { e.component with
            inputs := ins
            outputs := outs
            parameters := if e.cls = some hostedClass then e.component.parameters else params } }
  | terminal t =>
    terminal { component := { t.component with inputs := ins, outputs := outs, parameters := params } }
  | unsupported type data => unsupported type data

end NodeKind

namespace Compiler

variable {c : Compiler} {w : Workflow}

variable {k : NodeKind} {call : Effect} {reply : Reply Module} {m : Module} {e : Error}

theorem Asks.checked (h : c.Asks w k call reply) : k.Checked := by
  cases h with
  | provider hs hc => exact (Schema.ofSignature_eq_ok_iff.mp hs).1
  | factory hn hf hs => exact Field.nodup_of_coerceAll hs
  | constructor hn hh hb =>
    exact fun hv => absurd (Option.some.inj ((nonEmpty_eq_some hn).1.symm.trans hv)) hh

theorem Makes.checked (h : c.Makes w k m) : k.Checked := by
  cases h with
  | hosted hn hi hc hs => exact fun _ => Field.nodup_of_coerceAll hs
  | terminal t => trivial

theorem Refuses.of_unchecked (hr : c.Refuses w k e) (h : ¬ k.Checked) :
    ∃ f, e = .configuration f := by
  cases hr with
  | schema hs => exact Schema.error_of_ofSignature hs
  | model hs hc => exact ⟨_, ModelConfig.error_of_ofChoice hc⟩
  | retrieverSettings hn hf hs =>
    obtain ⟨i, hi⟩ := Field.coerceAll_of_repeated h
    exact ⟨_, Except.error.inj (hs.symm.trans hi)⟩
  | evaluatorSettings hn hi hc hs =>
    obtain ⟨-, hp⟩ := Classical.not_imp.mp h
    obtain ⟨i, hi⟩ := Field.coerceAll_of_repeated hp
    exact ⟨_, Except.error.inj (hs.symm.trans hi)⟩
  | unsupported type data => exact absurd trivial h
  | _ => exact ⟨_, rfl⟩

theorem Compiles.of_unchecked {x : Compiled} (hx : c.Compiles w k x) (h : ¬ k.Checked) :
    ∃ f, x = fail f := by
  cases hx with
  | refused hr =>
    obtain ⟨f, rfl⟩ := hr.of_unchecked h
    exact ⟨f, rfl⟩
  | asked ha => exact absurd ha.checked h
  | made hm => exact absurd hm.checked h

theorem compileEvaluator_refield (e : Evaluator) (ins outs params : Option (List Field)) :
    c.compileEvaluator
        { e with
          component :=
            { e.component with
              inputs := ins
              outputs := outs
              parameters :=
                if e.cls = some hostedClass then e.component.parameters else params } } w =
      c.compileEvaluator e w := by
  by_cases h : e.cls = some hostedClass
  · simp [compileEvaluator, compileHosted, Component.parameterFields, h]
  · cases hn : nonEmpty e.cls with
    | none => simp [compileEvaluator, hn]
    | some cls =>
      have hc : e.cls = some cls := (Option.filter_eq_some_iff.mp hn).1
      have hh : cls ≠ hostedClass := fun hh => h (hh ▸ hc)
      simp [compileEvaluator, hn, hh]

theorem compileKind_refield (k : NodeKind) (ins outs params : Option (List Field)) :
    c.compileKind w (k.refield ins outs params) = c.compileKind w k := by
  cases k with
  | signature s => rfl
  | retriever r => rfl
  | evaluator e => exact compileEvaluator_refield e ins outs params
  | terminal t => rfl
  | unsupported type data => rfl

theorem compile_checked (c : Compiler) (n : Node) (w : Workflow) :
    (∀ m, (c.compile n w).1 = .ok m →
      n.kind.Checked ∧ ∀ type data, n.kind ≠ .unsupported type data) ∧
    (¬ n.kind.Checked → ∃ f, c.compile n w = (.error (.configuration f), [.note .compiling])) ∧
    (∀ type data, n.kind = .unsupported type data →
      (c.compile n w).1 = .error (.unsupportedNodeType type)) ∧
    ∀ ins outs params,
      c.compile { n with kind := n.kind.refield ins outs params } w = c.compile n w := by
  have hrefused (h : ¬ n.kind.Checked) :
      ∃ f, c.compile n w = (.error (.configuration f), [.note .compiling]) := by
    obtain ⟨f, hf⟩ := (c.compiles w n.kind).of_unchecked h
    exact ⟨f, by simp [compile, hf, fail]⟩
  have hunknown (type : String) (data : Json) (h : n.kind = .unsupported type data) :
      (c.compile n w).1 = .error (.unsupportedNodeType type) := by
    simp [compile, compileKind, h]
  refine ⟨fun m hm => ⟨?_, fun type data h => ?_⟩, hrefused, hunknown, fun ins outs params => ?_⟩
  · refine Classical.byContradiction fun h => ?_
    obtain ⟨f, hf⟩ := hrefused h
    rw [hf] at hm
    cases hm
  · rw [hunknown type data h] at hm
    cases hm
  · simp only [compile, compileKind_refield]

def asking (input output : String) : Node :=
  ⟨"n", .signature
    ⟨{ Component.unset with
        inputs := some [.named input .str], outputs := some [.named output .str] },
      none, none, none⟩⟩

def doubled : Node :=
  ⟨"end", .terminal
    ⟨{ Component.unset with inputs := some [.named "x" .str, .named "x" .int] }⟩⟩

def plain : Compiler := ⟨fun _ => .ok ⟨0, "m"⟩, ∅, ∅, none⟩

theorem compile_checked_asking :
    (asking "q" "a").kind.Checked ∧ ¬ (asking "x" "x").kind.Checked ∧
      ∃ f, plain.compile (asking "x" "x") (.new "w" (.named "m")) =
        (.error (.configuration f), [.note .compiling]) := by
  have hshared : ¬ (asking "x" "x").kind.Checked :=
    fun h => h.apart "x" List.mem_cons_self List.mem_cons_self
  refine ⟨?_, hshared, (compile_checked plain (asking "x" "x") _).2.1 hshared⟩
  exact ((compile_checked plain (asking "q" "a") (.new "w" (.named "m"))).1 _ rfl).1

theorem compile_doubled :
    (plain.compile doubled (.new "w" (.named "m"))).1 = .ok .terminal ∧
      ¬ doubled.kind.Unambiguous := by
  refine ⟨rfl, fun h => ?_⟩
  have hn : ["x", "x"].Nodup := (h.lists _ rfl).inputs
  simp at hn

end Compiler

end NodeRun
