import NodeRun.Proofs.Compilation

namespace NodeRun

namespace ModelChoice

variable {c : ModelChoice} {name : String}

def listed (c : ModelChoice) : Option String := c.params.bind (fun t => t.get? "model")

inductive Names (c : ModelChoice) : String → Prop
  | listed {name : String} (h : c.listed = some name) (hne : name ≠ "") : Names c name
  | beside {name : String} (hl : ∀ x, c.listed = some x → x = "") (h : c.model = some name)
    (hne : name ≠ "") : Names c name

/-- An empty name stands among the parameters, and a name beside them. -/
structure Shadowed (c : ModelChoice) : Prop where
  listed : c.listed = some ""
  beside : ∃ name, c.model = some name ∧ name ≠ ""

def chosen (c : ModelChoice) : Option String := (c.listed <|> c.model).filter (fun m => m ≠ "")

theorem chosen_eq_some_iff : c.chosen = some name ↔ ¬ c.Shadowed ∧ c.Names name := by
  rw [chosen, Option.filter_eq_some_iff]
  constructor
  · rintro ⟨h, hne⟩
    replace hne : name ≠ "" := by simpa using hne
    cases hl : c.listed with
    | some x =>
      rw [hl] at h
      cases h
      refine ⟨fun hs => hne ?_, .listed hl hne⟩
      exact Option.some.inj (hl.symm.trans hs.listed)
    | none =>
      rw [hl] at h
      refine ⟨fun hs => ?_, .beside (fun x hx => ?_) h hne⟩
      · cases hl.symm.trans hs.listed
      · cases hl.symm.trans hx
  · rintro ⟨hs, hn⟩
    cases hn with
    | listed h hne => exact ⟨by simp [h], by simpa using hne⟩
    | beside hl h hne =>
      refine ⟨?_, by simpa using hne⟩
      cases hx : c.listed with
      | none => simpa using h
      | some x =>
        rw [hl x hx] at hx
        exact absurd ⟨hx, name, h, hne⟩ hs

theorem nameless_iff : c.Nameless ↔ ∀ name, ¬ c.Names name := by
  constructor
  · intro h name hn
    cases hn with
    | listed hl hne =>
      obtain ⟨params, hparams, hget⟩ := Option.bind_eq_some_iff.mp hl
      exact hne (h.params params name hparams hget)
    | beside hl hm hne => exact hne (h.model name hm)
  · intro h
    have hlisted (x : String) (hx : c.listed = some x) : x = "" :=
      Classical.byContradiction fun hne => h x (.listed hx hne)
    refine ⟨fun name hm => ?_, fun params name hparams hget => ?_⟩
    · exact Classical.byContradiction fun hne => h name (.beside hlisted hm hne)
    · exact hlisted name (Option.bind_eq_some_iff.mpr ⟨params, hparams, hget⟩)

theorem chosen_eq_none_iff : c.chosen = none ↔ c.Nameless ∨ c.Shadowed := by
  rw [Option.eq_none_iff_forall_ne_some, nameless_iff]
  simp only [ne_eq, chosen_eq_some_iff, not_and]
  constructor
  · intro h
    by_cases hs : c.Shadowed
    · exact .inr hs
    · exact .inl fun name => h name hs
  · rintro (h | hs) name hn
    · exact h name
    · exact absurd hs hn

end ModelChoice

namespace ModelConfig

variable {c : ModelChoice} {m : ModelConfig} {e : Error}

inductive Provider (model : String) : Option String → Prop
  | named {provider rest : String} (h : model = provider ++ "/" ++ rest)
    (hp : '/' ∉ provider.toList) : Provider model (some provider)
  | unnamed (h : '/' ∉ model.toList) : Provider model none

theorem providerOf_append {provider : String} (h : '/' ∉ provider.toList) (rest : String) :
    providerOf (provider ++ "/" ++ rest) = some provider := by
  have hlist : (provider ++ "/" ++ rest).toList = provider.toList ++ '/' :: rest.toList := by
    simp [String.toList_append]
  have hbefore : ∀ x ∈ provider.toList, decide (x ≠ '/') = true := by
    intro x hx
    simpa using fun he : x = '/' => h (he ▸ hx)
  rw [providerOf, hlist, if_pos (by simp), List.takeWhile_append_of_pos hbefore]
  simp [String.ofList_toList]

theorem provider_iff {model : String} {p : Option String} :
    Provider model p ↔ providerOf model = p := by
  constructor
  · intro h
    cases h with
    | named h hp => rw [h, providerOf_append hp]
    | unnamed h => rw [providerOf, if_neg h]
  · rintro rfl
    by_cases h : '/' ∈ model.toList
    · obtain ⟨before, after, hmodel, hbefore⟩ := List.eq_append_cons_of_mem h
      have hp : '/' ∉ (String.ofList before).toList := by rwa [String.toList_ofList]
      have heq : model = String.ofList before ++ "/" ++ String.ofList after := by
        rw [← String.toList_inj, hmodel]
        simp [String.toList_append, String.toList_ofList]
      have hprovider := providerOf_append hp (String.ofList after)
      rw [← heq] at hprovider
      rw [hprovider]
      exact .named heq hp
    · rw [providerOf, if_neg h]
      exact .unnamed h

structure Translates (c : ModelChoice) (m : ModelConfig) : Prop where
  model : c.Names m.model
  provider : Provider m.model m.provider
  params : ∀ k, m.params.get? k = if k = "model" then none else c.params.bind (fun t => t.get? k)
  temperature : m.temperature = c.temperature.getD defaultTemperature
  maxTokens : m.maxTokens = c.maxTokens.getD defaultMaxTokens

theorem get?_getD (t : Option (Table String)) (k : String) :
    (t.getD ∅).get? k = t.bind (fun t => t.get? k) := by
  cases t <;> rfl

theorem ofChoice_of_none (h : c.chosen = none) :
    ofChoice c = .error (.configuration .modelMissing) := by
  rw [ModelChoice.chosen, ModelChoice.listed, ← get?_getD] at h
  simp only [ofChoice, h]

theorem ofChoice_of_some {name : String} (h : c.chosen = some name) :
    ofChoice c = .ok ⟨providerOf name, name, c.temperature.getD defaultTemperature,
      c.maxTokens.getD defaultMaxTokens, (c.params.getD ∅).erase "model"⟩ := by
  rw [ModelChoice.chosen, ModelChoice.listed, ← get?_getD] at h
  simp only [ofChoice, h]

theorem get?_params (t : Option (Table String)) (k : String) :
    ((t.getD ∅).erase "model").get? k = if k = "model" then none else t.bind (fun t => t.get? k) := by
  rw [Table.get?_erase, get?_getD]
  simp only [eq_comm]

theorem ofChoice_eq_ok_iff : ofChoice c = .ok m ↔ ¬ c.Shadowed ∧ Translates c m := by
  constructor
  · intro h
    cases hc : c.chosen with
    | none =>
      rw [ofChoice_of_none hc] at h
      cases h
    | some name =>
      rw [ofChoice_of_some hc] at h
      cases h
      obtain ⟨hs, hn⟩ := ModelChoice.chosen_eq_some_iff.mp hc
      exact ⟨hs, hn, provider_iff.mpr rfl, get?_params c.params, rfl, rfl⟩
  · rintro ⟨hs, ht⟩
    rw [ofChoice_of_some (ModelChoice.chosen_eq_some_iff.mpr ⟨hs, ht.model⟩)]
    have hparams : (c.params.getD ∅).erase "model" = m.params :=
      Table.ext_get? fun k => (get?_params c.params k).trans (ht.params k).symm
    rw [provider_iff.mp ht.provider, ← ht.temperature, ← ht.maxTokens, hparams]

theorem ofChoice_eq_error_iff :
    ofChoice c = .error e ↔ (c.Nameless ∨ c.Shadowed) ∧ e = .configuration .modelMissing := by
  constructor
  · intro h
    refine ⟨ModelChoice.chosen_eq_none_iff.mp ?_, error_of_ofChoice h⟩
    cases hc : c.chosen with
    | none => rfl
    | some name =>
      rw [ofChoice_of_some hc] at h
      cases h
  · rintro ⟨h, rfl⟩
    exact ofChoice_of_none (ModelChoice.chosen_eq_none_iff.mpr h)

end ModelConfig

namespace Compiler

open ModelConfig

variable {c : Compiler} {w : Workflow} {k : NodeKind} {config : ModelConfig}

theorem Asks.ofChoice_eq {reply : Reply Module} (h : c.Asks w k (.modelWanted config) reply) :
    ∃ s, k = .signature s ∧ ofChoice (choice s w) = .ok config := by
  cases h with
  | provider hs hc => exact ⟨_, rfl, hc⟩

theorem Compiles.ofChoice_eq {x : Compiled} (h : c.Compiles w k x)
    (hx : .modelWanted config ∈ x.2) :
    ∃ s, k = .signature s ∧ ofChoice (choice s w) = .ok config := by
  cases h with
  | refused h => cases hx
  | made h => cases hx
  | asked h hn =>
    rcases List.mem_cons.mp hx with rfl | hx
    · exact h.ofChoice_eq
    · obtain ⟨x, -, hx⟩ := List.mem_map.mp hx
      cases hx

theorem compile_ofChoice {n : Node} (h : .modelWanted config ∈ (c.compile n w).2) :
    ∃ s, n.kind = .signature s ∧ ofChoice (choice s w) = .ok config := by
  rcases List.mem_cons.mp h with h | h
  · cases h
  · exact (c.compiles w n.kind).ofChoice_eq h

end Compiler

namespace ModelConfig

theorem ofChoice_exact (choice : ModelChoice) :
    (∀ e, ofChoice choice = .error e ↔
      (choice.Nameless ∨ choice.Shadowed) ∧ e = .configuration .modelMissing) ∧
    (∀ m, ofChoice choice = .ok m ↔ ¬ choice.Shadowed ∧ Translates choice m) ∧
    ∀ (c : Compiler) (n : Node) (w : Workflow) (config : ModelConfig),
      .modelWanted config ∈ (c.compile n w).2 →
        ∃ s, n.kind = .signature s ∧
          (∀ own, s.llm = some own → ofChoice own = .ok config) ∧
          (s.llm = none → ofChoice w.defaultModel = .ok config) := by
  refine ⟨fun e => ofChoice_eq_error_iff, fun m => ofChoice_eq_ok_iff, fun c n w config h => ?_⟩
  obtain ⟨s, hs, hconfig⟩ := Compiler.compile_ofChoice h
  refine ⟨s, hs, fun own hown => ?_, fun hnone => ?_⟩
  · rwa [Compiler.choice, hown, Option.getD_some] at hconfig
  · rwa [Compiler.choice, hnone, Option.getD_none] at hconfig

def choosing (own : Option ModelChoice) : Node :=
  ⟨"s", .signature { Schema.between [.named "q" .str] [.named "a" .str] with llm := own }⟩

theorem ofChoice_exact_override :
    let own : ModelChoice := ⟨some "m", none, none, some (.ofList [("model", "p/x/y"), ("a", "b")])⟩
    ∃ config, .modelWanted config ∈
        (Compiler.unserved.compile (choosing own) (.new "w" (.named ""))).2 ∧
      ofChoice own = .ok config ∧ Translates own config ∧ config.provider = some "p" ∧
      config.params.get? "a" = some "b" := by
  intro own
  obtain ⟨config, h⟩ : ∃ config, .modelWanted config ∈
      (Compiler.unserved.compile (choosing own) (.new "w" (.named ""))).2 :=
    ⟨_, List.mem_cons_of_mem _ List.mem_cons_self⟩
  obtain ⟨-, hok, hasked⟩ := ofChoice_exact own
  obtain ⟨s, hs, hown, -⟩ := hasked _ _ _ config h
  cases hs
  have hconfig : ofChoice own = .ok config := hown own rfl
  obtain ⟨-, ht⟩ := (hok config).mp hconfig
  refine ⟨config, h, hconfig, ht, ?_, ht.params "a"⟩
  cases hconfig
  rfl

theorem ofChoice_shadowed :
    let c : ModelChoice := ⟨some "openai/g", none, none, some (.ofList [("model", "")])⟩
    c.Names "openai/g" ∧ ofChoice c = .error (.configuration .modelMissing) := by
  intro c
  refine ⟨.beside (fun x hx => ?_) rfl (by decide), rfl⟩
  cases hx
  rfl

end ModelConfig

end NodeRun
