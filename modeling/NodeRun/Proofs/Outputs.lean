import NodeRun.Proofs.Schema
import NodeRun.Proofs.Spans

namespace NodeRun

namespace Predict

variable {p : Predict} {slots : List SchemaSlot} {produced outputs : Table Json}

def outputNames (p : Predict) : List String := p.schema.outputs.map SchemaSlot.name

def lackingIn (produced : Table Json) (slots : List SchemaSlot) : List String :=
  (slots.filter (fun s => !s.optional && !produced.contains s.name)).map SchemaSlot.name

def lacking (p : Predict) (produced : Table Json) : List String :=
  lackingIn produced p.schema.outputs

theorem gather_of_none {s : SchemaSlot} (h : produced.get? s.name = none)
    (slots : List SchemaSlot) :
    gather produced outputs (s :: slots) =
      ((gather produced outputs slots).1,
        if s.optional then (gather produced outputs slots).2
        else s.name :: (gather produced outputs slots).2) := by
  simp only [gather, h]

theorem gather_of_some {s : SchemaSlot} {v : Json} (h : produced.get? s.name = some v)
    (slots : List SchemaSlot) :
    gather produced outputs (s :: slots) =
      gather (produced.erase s.name) (outputs.insert s.name v) slots := by
  simp only [gather, h]

theorem get?_gather (h : (slots.map SchemaSlot.name).Nodup) (i : String) :
    (gather produced outputs slots).1.get? i =
      if i ∈ slots.map SchemaSlot.name then produced.get? i <|> outputs.get? i
      else outputs.get? i := by
  induction slots generalizing produced outputs with
  | nil => simp [gather]
  | cons s slots ih =>
    obtain ⟨hs, hslots⟩ := List.nodup_cons.mp h
    rw [List.map_cons]
    by_cases hi : s.name = i
    · -- The slot itself: no later one has its name, so what it took stays.
      subst hi
      rw [if_pos List.mem_cons_self]
      cases hv : produced.get? s.name with
      | none =>
        rw [gather_of_none hv, ih hslots, if_neg hs]
        rfl
      | some v =>
        rw [gather_of_some hv, ih hslots, if_neg hs, Table.get?_insert, if_pos rfl]
        rfl
    · have hmem : i ∈ s.name :: slots.map SchemaSlot.name ↔ i ∈ slots.map SchemaSlot.name := by
        simp [Ne.symm hi]
      simp only [hmem]
      cases hv : produced.get? s.name with
      | none => rw [gather_of_none hv, ih hslots]
      | some v =>
        rw [gather_of_some hv, ih hslots, Table.get?_erase_of_ne _ hi, Table.get?_insert, if_neg hi]

theorem lackingIn_erase {i : String} (h : i ∉ slots.map SchemaSlot.name) :
    lackingIn (produced.erase i) slots = lackingIn produced slots := by
  refine congrArg _ (List.filter_congr fun s hs => ?_)
  have hne : i ≠ s.name := fun hi => h (hi ▸ List.mem_map_of_mem hs)
  rw [Table.contains, Table.contains, Table.get?_erase_of_ne _ hne]

theorem missing_gather (h : (slots.map SchemaSlot.name).Nodup) :
    (gather produced outputs slots).2 = lackingIn produced slots := by
  induction slots generalizing produced outputs with
  | nil => rfl
  | cons s slots ih =>
    obtain ⟨hs, hslots⟩ := List.nodup_cons.mp h
    cases hv : produced.get? s.name with
    | none =>
      rw [gather_of_none hv, ih hslots]
      cases ho : s.optional <;> simp [lackingIn, Table.contains, hv, ho]
    | some v =>
      rw [gather_of_some hv, ih hslots, lackingIn_erase hs]
      simp [lackingIn, Table.contains, hv]

theorem collect_eq (p : Predict) (produced : Table Json) :
    p.collect produced =
      match (gather produced ∅ p.schema.outputs).2 with
      | [] => .ok (gather produced ∅ p.schema.outputs).1
      | names => .error (.invocation (.missingOutputs p.model.name names)) := by
  unfold collect
  rcases gather produced ∅ p.schema.outputs with ⟨outputs, names⟩
  cases names <;> rfl

theorem collect_of_whole (h : p.outputNames.Nodup) (hl : p.lacking produced = []) :
    ∃ outputs, p.collect produced = .ok outputs ∧
      ∀ i, outputs.get? i = if i ∈ p.outputNames then produced.get? i else none := by
  refine ⟨(gather produced ∅ p.schema.outputs).1, ?_, fun i => ?_⟩
  · rw [collect_eq, missing_gather h, show lackingIn produced p.schema.outputs = [] from hl]
  · rw [get?_gather h, Table.get?_empty, outputNames]
    split <;> simp

theorem collect_of_lacking (h : p.outputNames.Nodup) (hl : p.lacking produced ≠ []) :
    p.collect produced =
      .error (.invocation (.missingOutputs p.model.name (p.lacking produced))) := by
  rw [collect_eq, missing_gather h]
  cases hn : lackingIn produced p.schema.outputs with
  | nil => exact absurd hn hl
  | cons name names => rw [lacking, hn]

theorem lacking_eq_nil_iff :
    p.lacking produced = [] ↔
      ∀ s ∈ p.schema.outputs, s.optional = false → produced.contains s.name = true := by
  simp [lacking, lackingIn, List.filter_eq_nil_iff]

structure Makes (p : Predict) (reply : Reply Completion) (result : Reply Prediction) : Prop where
  succeeds : (∃ x, result = .ok x) ↔
    ∃ a, reply = .ok a ∧
      ∀ s ∈ p.schema.outputs, s.optional = false → a.outputs.contains s.name = true
  outputs : ∀ a x, reply = .ok a → result = .ok x →
    (∀ i, x.outputs.get? i = if i ∈ p.outputNames then a.outputs.get? i else none) ∧
      x.cost = a.usage.bind TokenUsage.cost
  missing : ∀ a, reply = .ok a → (∀ x, result ≠ .ok x) →
    result = .error (.invocation (.missingOutputs p.model.name (p.lacking a.outputs)))
  failed : ∀ e, reply = .error e → result = .error e
  panicked : ∀ m, reply = .panic m → result = .panic m

theorem finishPredict_ok (m : Moment) (p : Predict) (span : Option Span) (a : Completion) :
    (Pending.finishPredict m p span (.ok a)).1 =
      (p.collect a.outputs).map (fun outputs => ⟨outputs, a.usage.bind TokenUsage.cost⟩) := by
  have hcost : (a.usage.getD .unknown).cost = a.usage.bind TokenUsage.cost := by
    cases a.usage <;> rfl
  simp only [Pending.finishPredict, Except.bind, read, ← hcost]
  cases p.collect a.outputs <;> rfl

theorem settle_ok {m : Moment} {span : Option Span} {a : Completion} :
    (Pending.settle (.ok a) (Pending.finishPredict m p span)).1 =
      .ofExcept ((p.collect a.outputs).map
        (fun outputs => ⟨outputs, a.usage.bind TokenUsage.cost⟩)) :=
  congrArg Reply.ofExcept (finishPredict_ok m p span a)

theorem makes_settle (h : p.outputNames.Nodup) (reply : Reply Completion) (m : Moment)
    (span : Option Span) :
    p.Makes reply (Pending.settle reply (Pending.finishPredict m p span)).1 := by
  cases reply with
  | error e => exact ⟨⟨nofun, nofun⟩, nofun, nofun, fun _ he => Reply.error.inj he ▸ rfl, nofun⟩
  | panic msg => exact ⟨⟨nofun, nofun⟩, nofun, nofun, nofun, fun _ hm => Reply.panic.inj hm ▸ rfl⟩
  | ok a =>
    rw [settle_ok]
    by_cases hl : p.lacking a.outputs = []
    · obtain ⟨outputs, hc, houtputs⟩ := collect_of_whole h hl
      rw [hc]
      refine ⟨⟨fun _ => ⟨a, rfl, lacking_eq_nil_iff.mp hl⟩, fun _ => ⟨_, rfl⟩⟩, ?_, ?_, nofun,
        nofun⟩
      · rintro _ _ ⟨⟩ ⟨⟩
        exact ⟨houtputs, rfl⟩
      · intro _ _ hfailed
        exact absurd rfl (hfailed _)
    · rw [collect_of_lacking h hl]
      refine ⟨⟨nofun, ?_⟩, nofun, ?_, nofun, nofun⟩
      · rintro ⟨_, ⟨⟩, hwhole⟩
        exact absurd (lacking_eq_nil_iff.mpr hwhole) hl
      · rintro _ ⟨⟩ -
        rfl

end Predict

namespace Schema

theorem outputNames_nodup {s : Signature} {schema : Schema} (h : ofSignature s = .ok schema) :
    (schema.outputs.map SchemaSlot.name).Nodup := by
  obtain ⟨hd, rfl⟩ := ofSignature_eq_ok_iff.mp h
  rw [mirror, SchemaSlot.map_name]
  exact hd.outputs

end Schema

namespace LanguageModel

variable {m m' : LanguageModel}

theorem resolve_congr (h : m'.source = m.source) (asked : Asked) (r : CompletionRequest)
    (s : InvocationSettings) : (m'.resolve asked r s).1 = (m.resolve asked r s).1 := by
  cases asked with
  | cached a => rfl
  | waiting delay call =>
    simp only [resolve, answer, h]
    cases m.source with
    | scripted c => rfl
    | canned c => cases hf : c.failure <;> simp [hf]

theorem resolve_set (models : List LanguageModel) (i : Nat)
    (h : m.source = (atPlace models i).source) (asked : Asked) (r : CompletionRequest) (s : InvocationSettings) :
    ((atPlace (models.set i m) i).resolve asked r s).1 = (m.resolve asked r s).1 ∧
      (models.set i m).set i ((atPlace (models.set i m) i).resolve asked r s).2 =
        models.set i (m.resolve asked r s).2 := by
  constructor
  · refine resolve_congr ?_ asked r s
    rw [atPlace_source, sources_set h, ← atPlace_source, h]
  · rw [List.set_set]
    by_cases hi : i < models.length
    · have hplace : atPlace (models.set i m) i = m := by simp [atPlace, hi]
      rw [hplace]
    · rw [List.set_eq_of_length_le (Nat.le_of_not_lt hi),
        List.set_eq_of_length_le (Nat.le_of_not_lt hi)]

end LanguageModel

namespace Module

open LanguageModel

theorem forward_declared {s : Signature} {p : Predict} (h : Schema.ofSignature s = .ok p.schema)
    (c : InvocationContext) (m : Moment) (models : List LanguageModel) (inputs : Table Json) :
    let model := atPlace models p.model.index
    let request : CompletionRequest := ⟨p.schema, inputs, p.demos⟩
    let f := (Module.predict p).forward c m models inputs
    f.effects = [.completionWanted p.model request c.settings] ∧
    f.models = models.set p.model.index (model.complete request c.settings).2 ∧
    p.Makes (model.complete request c.settings).1 f.result ∧
    ∀ answered later,
      let asked := (model.ask request c.settings).1
      p.Makes ((atPlace later p.model.index).resolve asked request c.settings).1
        ((Module.predict p).forwardAt c m answered models later inputs).result := by
  intro model request f
  have hnodup : p.outputNames.Nodup := Schema.outputNames_nodup h
  have hset := resolve_set models p.model.index (ask_source model request c.settings)
    (model.ask request c.settings).1 request c.settings
  refine ⟨rfl, hset.2, ?_, fun answered later => Predict.makes_settle hnodup _ _ _⟩
  have hreply : (model.complete request c.settings).1 = _ := hset.1.symm
  rw [hreply]
  exact Predict.makes_settle hnodup _ _ _

def lookup : Signature :=
  Schema.between [.named "q" .str] [.named "a" .str, { Field.named "b" .int with optional := true }]

def saying (outputs : List (String × Json)) : LanguageModel :=
  .ofSource (.scripted (.ofScript "m"
    [(0, .ok ⟨.ofList outputs, some ⟨none, none, some (.ofInt 2)⟩⟩)]))

theorem forward_declared_lookup :
    let p : Predict := .new (Schema.mirror lookup) ⟨0, "m"⟩ []
    let run (outputs : List (String × Json)) :=
      (Module.predict p).forward traced ⟨0, 0⟩ [saying outputs] ∅
    Schema.ofSignature lookup = .ok p.schema ∧
    (∃ x, (run [("a", .str "x"), ("z", .null)]).result = .ok x ∧
      x.outputs.get? "a" = some (.str "x") ∧ x.outputs.get? "b" = none ∧
      x.outputs.get? "z" = none ∧ x.cost = some (.ofInt 2)) ∧
    (run [("b", .bool true)]).result = .error (.invocation (.missingOutputs "m" ["a"])) := by
  intro p run
  have hs : Schema.ofSignature lookup = .ok p.schema := rfl
  have hmakes (outputs : List (String × Json)) :=
    (forward_declared hs traced ⟨0, 0⟩ [saying outputs] ∅).2.2.1
  refine ⟨hs, ?_, ?_⟩
  · obtain ⟨x, hx⟩ := (hmakes [("a", .str "x"), ("z", .null)]).succeeds.mpr ⟨_, rfl, by decide⟩
    obtain ⟨houtputs, hcost⟩ := (hmakes _).outputs _ x rfl hx
    exact ⟨x, hx, houtputs "a", houtputs "b", houtputs "z", hcost⟩
  · refine (hmakes [("b", .bool true)]).missing _ rfl fun x hx => ?_
    obtain ⟨a, ha, hwhole⟩ := (hmakes [("b", .bool true)]).succeeds.mp ⟨x, hx⟩
    cases ha
    exact absurd (hwhole _ List.mem_cons_self rfl) (by decide)

end Module

end NodeRun
