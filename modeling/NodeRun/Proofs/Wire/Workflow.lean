import NodeRun.Proofs.Wire.Record
import NodeRun.Workflow.Basic

namespace NodeRun

open Decode

namespace FieldType

theorem strict_decode : Strict decode toJson (fun _ => True) := strict_variant ofName?_name

end FieldType

namespace FieldValue

def Canonical : FieldValue → Prop
  | .float x => x.isFinite = true
  | _ => True

theorem canonical_of_ofJson? {j : Json} {v : FieldValue} (hj : j.Proper) (h : ofJson? j = some v) :
    v.Canonical := by
  cases j with
  | int n =>
    simp only [ofJson?] at h
    split at h <;> cases h
    · trivial
    · exact Json.IsWord.isFinite (by simpa only [Json.Proper] using hj)
  | real x =>
    cases h
    rwa [Json.Proper] at hj
  | bool b => cases h; trivial
  | str s => cases h; trivial
  | _ => exact nomatch h

theorem toJson_float {x : Real64} (h : (float x).Canonical) : (float x).toJson = .real x :=
  if_pos h

theorem ofJson?_toJson {v : FieldValue} (h : v.Canonical) :
    ofJson? v.toJson.normalize = some v := by
  cases v with
  | int n =>
    have hl := n.le_toInt
    have hu := n.toInt_lt
    simp only [toJson, Json.normalize, ofJson?]
    rw [if_pos (by omega), Int64.ofInt_toInt]
  | float x =>
    rw [toJson_float h]
    rfl
  | _ => rfl

theorem decode_ofJson (o : Origin) (j : Json) :
    decode o (Doc.ofJson j) =
      match ofJson? j.normalize with
      | some v => .ok v
      | none => .error (.noVariant "FieldValue") := by
  simp only [decode, any_ofJson]
  rfl

theorem strict_decode : Strict decode toJson Canonical where
  yields := by
    intro o j v hj hv
    rw [decode_ofJson, hj.normalize_eq] at hv
    split at hv
    · rename_i w hw
      cases hv
      exact canonical_of_ofJson? hj hw
    · cases hv
  takes := by
    intro v hv o
    have hnormal : v.toJson.normalize.normalize = v.toJson.normalize := by
      cases v with
      | float x =>
        rw [toJson_float hv]
        rfl
      | _ => rfl
    rw [decode_ofJson, hnormal, ofJson?_toJson hv]
  writes := by
    intro v hv
    cases v with
    | bool b => exact strict_bool.writes b trivial
    | int n => exact strict_int64.writes n trivial
    | float x => exact strict_real.writes x hv
    | str s => exact strict_string.writes s trivial
  refuses := nofun

end FieldValue

namespace Field

def Canonical (f : Field) : Prop := ∀ j ∈ f.value, j.Proper ∧ j ≠ .null

theorem strict_decode : Strict decode toJson Canonical :=
  .record
    ((Fields.Lawful.required_all strict_string identifier).map mk (by intros; assumption)
      |>.and (.required_all FieldType.strict_decode type)
      |>.and (.optional_all strict_bool optional)
      |>.and (.optional_all strict_string desc)
      |>.and (.optional_all strict_string defaultValue)
      |>.and (.free value fun _ h => h))
    (by decide)

end Field

namespace ModelChoice

def Canonical (c : ModelChoice) : Prop := ∀ x ∈ c.temperature, x.isFinite = true

theorem strict_decode : Strict decode toJson Canonical :=
  .record
    ((Fields.Lawful.optional_all strict_string model).map mk (by intros; assumption)
      |>.and (.optional strict_real temperature fun _ h => h)
      |>.and (.optional_all strict_uint32 maxTokens)
      |>.and (.optional_all strict_strings params))
    (by decide)

end ModelChoice

namespace Column

theorem strict_decode : Strict decode toJson (fun _ => True) :=
  .record
    ((Fields.Lawful.required_all strict_string name).map mk (by intros; trivial)
      |>.and (.required_all strict_string type))
    (by decide)

end Column

namespace InlineDataset

def Canonical (d : InlineDataset) : Prop := ∀ e ∈ d.records.entries, ∀ j ∈ e.2, j.Proper

theorem strict_decode : Strict decode toJson Canonical :=
  .record
    ((Fields.Lawful.required strict_anyList.toFaithful.table records fun _ h => h).map mk
        (by intros; assumption)
      |>.and (.optional_all Column.strict_decode.list_all columnTypes))
    (by decide)

end InlineDataset

namespace Dataset

def Canonical (d : Dataset) : Prop := ∀ i ∈ d.inline, i.Canonical

theorem strict_decode : Strict decode toJson Canonical :=
  .record
    ((Fields.Lawful.optional_all strict_string id).map mk (by intros; assumption)
      |>.and (.optional_all strict_string name)
      |>.and (.optional InlineDataset.strict_decode inline fun _ h => h))
    (by decide)

end Dataset

namespace Component

structure Canonical (c : Component) : Prop where
  inputs : ∀ fs ∈ c.inputs, ∀ f ∈ fs, f.Canonical
  outputs : ∀ fs ∈ c.outputs, ∀ f ∈ fs, f.Canonical
  parameters : ∀ fs ∈ c.parameters, ∀ f ∈ fs, f.Canonical

theorem lawful_fields : fields.Lawful Canonical id members Canonical :=
  (Fields.Lawful.optional_all strict_string name).map mk (by intros; constructor <;> assumption)
    |>.and (.optional_all strict_string description)
    |>.and (.optional Field.strict_decode.toFaithful.list inputs fun _ h => h.inputs)
    |>.and (.optional Field.strict_decode.toFaithful.list outputs fun _ h => h.outputs)
    |>.and (.optional Field.strict_decode.toFaithful.list parameters fun _ h => h.parameters)

theorem strict_decode : Strict decode toJson Canonical := .record lawful_fields (by decide)

end Component

namespace Signature

structure Canonical (s : Signature) : Prop where
  component : s.component.Canonical
  llm : ∀ c ∈ s.llm, c.Canonical
  demonstrations : ∀ d ∈ s.demonstrations, d.Canonical

theorem strict_decode : Strict decode toJson Canonical :=
  .flattened
    ((Fields.Lawful.optional_all strict_string prompt).map (fun p l d c => mk c p l d)
        (by intros; constructor <;> assumption)
      |>.and (.optional ModelChoice.strict_decode llm fun _ h => h.llm)
      |>.and (.optional Dataset.strict_decode demonstrations fun _ h => h.demonstrations))
    (Component.lawful_fields.comap component fun _ h => h.component)
    (by decide) (fun _ => rfl) (fun _ => rfl)

end Signature

namespace Retriever

def Canonical (r : Retriever) : Prop := r.component.Canonical

theorem strict_decode : Strict decode toJson Canonical :=
  .flattened
    ((Fields.Lawful.optional_all strict_string cls).map (fun k c => mk c k) (by intros; assumption))
    (Component.lawful_fields.comap component fun _ h => h)
    (by decide) (fun _ => rfl) (fun _ => rfl)

end Retriever

namespace Evaluator

def Canonical (e : Evaluator) : Prop := e.component.Canonical

theorem strict_decode : Strict decode toJson Canonical :=
  .flattened
    ((Fields.Lawful.optional_all strict_string cls).map (fun k e c => mk c k e)
        (by intros; assumption)
      |>.and (.optional_all strict_string evaluator))
    (Component.lawful_fields.comap component fun _ h => h)
    (by decide) (fun _ => rfl) (fun _ => rfl)

end Evaluator

namespace Terminal

def Canonical (t : Terminal) : Prop := t.component.Canonical

theorem strict_decode : Strict decode toJson Canonical :=
  .flattened (.none fun _ h => h) (Component.lawful_fields.comap component fun _ h => h)
    (by decide) (fun _ => rfl) (fun _ => rfl)

end Terminal

namespace NodeKind

def Canonical : NodeKind → Prop
  | signature s => s.Canonical
  | retriever r => r.Canonical
  | evaluator e => e.Canonical
  | terminal t => t.Canonical
  | unsupported type data => type ∉ compiled ∧ data.Proper ∧ data ≠ .null

theorem ofData_of_not_compiled {type : String} (h : type ∉ compiled) (data : Json) :
    ofData type data = .ok (unsupported type data) := by
  simp only [compiled, List.mem_cons, List.not_mem_nil, or_false, not_or] at h
  rw [ofData, if_neg h.1, if_neg h.2.1, if_neg h.2.2.1, if_neg h.2.2.2]

theorem canonical_of_ofData {type : String} {data : Json} {k : NodeKind} (hp : data.Proper)
    (hn : data ≠ .null) (h : ofData type data = .ok k) : k.Canonical := by
  by_cases ht : type ∈ compiled
  · simp only [compiled, List.mem_cons, List.not_mem_nil, or_false] at ht
    rcases ht with rfl | rfl | rfl | rfl <;> obtain ⟨x, hx, rfl⟩ := map_eq_ok.mp h
    · exact Signature.strict_decode.yields .value data x hp hx
    · exact Retriever.strict_decode.yields .value data x hp hx
    · exact Evaluator.strict_decode.yields .value data x hp hx
    · exact Terminal.strict_decode.yields .value data x hp hx
  · rw [ofData_of_not_compiled ht] at h
    cases h
    exact ⟨ht, hp, hn⟩

theorem ofData_data {k : NodeKind} (h : k.Canonical) :
    ofData k.typeName k.data.normalize = .ok k ∧ k.data.normalize ≠ .null := by
  cases k with
  | signature s =>
    have hdata := Signature.strict_decode.ofJson_normalize h
    exact ⟨congrArg (Except.map signature) hdata, Signature.strict_decode.normalize_ne_null h⟩
  | retriever r =>
    have hdata := Retriever.strict_decode.ofJson_normalize h
    exact ⟨congrArg (Except.map retriever) hdata, Retriever.strict_decode.normalize_ne_null h⟩
  | evaluator e =>
    have hdata := Evaluator.strict_decode.ofJson_normalize h
    exact ⟨congrArg (Except.map evaluator) hdata, Evaluator.strict_decode.normalize_ne_null h⟩
  | terminal t =>
    have hdata := Terminal.strict_decode.ofJson_normalize h
    exact ⟨congrArg (Except.map terminal) hdata, Terminal.strict_decode.normalize_ne_null h⟩
  | unsupported type data =>
    obtain ⟨htype, hp, hn⟩ := h
    have hnormal : data.normalize = data := hp.normalize_eq
    exact ⟨hnormal.symm ▸ ofData_of_not_compiled htype data, hnormal.symm ▸ hn⟩

theorem data_proper (k : NodeKind) (h : k.Canonical) : k.data.normalize.Proper := by
  cases k with
  | signature s => exact Signature.strict_decode.writes s h
  | retriever r => exact Retriever.strict_decode.writes r h
  | evaluator e => exact Evaluator.strict_decode.writes e h
  | terminal t => exact Terminal.strict_decode.writes t h
  | unsupported type data => exact faithful_any.writes data h.2.1

end NodeKind

namespace Node

def Canonical (n : Node) : Prop := n.kind.Canonical

theorem dataOrEmpty_of_ne_null {data : Json} (h : data ≠ .null) : dataOrEmpty data = data := by
  cases data <;> first | exact absurd rfl h | rfl

theorem dataOrEmpty_proper {data : Json} (h : data.Proper) :
    (dataOrEmpty data).Proper ∧ dataOrEmpty data ≠ .null := by
  by_cases hnull : data = .null
  · subst hnull
    exact ⟨Json.proper_obj.mpr ⟨.nil, nofun⟩, nofun⟩
  · rw [dataOrEmpty_of_ne_null hnull]
    exact ⟨h, hnull⟩

abbrev Written := String × String × Option Json

theorem lawful_data :
    (Fields.withDefault .null "data" any).Lawful
      (fun p : Written => ∀ d ∈ p.2.2, d.normalize.Proper)
      (fun p => (p.2.2.map Json.normalize).getD .null) (fun p => [("data", p.2.2)])
      Json.Proper := by
  refine .field faithful_any.yields ?_ ?_ ?_ fun _ hp => hp
  · intro d hd
    cases hd
    trivial
  · intro p _ d hd o
    rw [any_ofJson, Json.normalize_normalize, Option.mem_def.mp hd]
    rfl
  · intro p _ hd
    rw [hd]
    rfl

theorem lawful_raw :
    raw.Lawful (fun p : Written => ∀ d ∈ p.2.2, d.normalize.Proper)
      (fun p => (p.1, p.2.1, (p.2.2.map Json.normalize).getD .null))
      (fun p => [("id", some (.str p.1)), ("type", some (.str p.2.1)), ("data", p.2.2)])
      (fun t => t.2.2.Proper) :=
  (Fields.Lawful.required_all strict_string Prod.fst).map
      (fun (i t : String) (d : Json) => (i, t, d)) (by intros; assumption)
    |>.and (.required_all strict_string fun p : Written => p.2.1)
    |>.and lawful_data

theorem strict_decode : Strict decode toJson Canonical where
  yields := by
    intro o j n hj hn
    obtain ⟨⟨id, type, data⟩, hraw, hkind⟩ := bind_eq_ok.mp hn
    obtain ⟨k, hk, hpair⟩ := bind_eq_ok.mp hkind
    cases hpair
    have hdata := lawful_raw.yields_record _ o j _ hj hraw
    obtain ⟨hp, hnull⟩ := dataOrEmpty_proper hdata
    exact NodeKind.canonical_of_ofData hp hnull hk
  takes := by
    intro n hn o
    have hraw : Decode.record "struct RawNode" raw o (Doc.ofJson n.toJson.normalize) =
        .ok (n.id, n.typeName, n.kind.data.normalize) :=
      lawful_raw.takes_record (x := (n.id, n.typeName, some n.kind.data)) "struct RawNode"
        (by decide) (fun _ hd => Option.some.inj hd ▸ n.kind.data_proper hn) o
    obtain ⟨hkind, hnull⟩ := NodeKind.ofData_data hn
    show (Decode.record "struct RawNode" raw o (Doc.ofJson n.toJson.normalize) >>= _) = _
    rw [hraw]
    show (NodeKind.ofData n.kind.typeName (dataOrEmpty n.kind.data.normalize) >>= _) = _
    rw [dataOrEmpty_of_ne_null hnull, hkind]
    rfl
  writes := fun n hn => Json.proper_record (lawful_raw.writes (n.id, n.typeName, some n.kind.data)
    fun _ hd => Option.some.inj hd ▸ n.kind.data_proper hn)
  refuses := fun _ _ h => nomatch h

end Node

namespace Workflow

structure Canonical (w : Workflow) : Prop where
  nodes : ∀ n ∈ w.nodes, n.Canonical
  defaultModel : w.defaultModel.Canonical

theorem strict_decode : Strict decode toJson Canonical :=
  .record
    ((Fields.Lawful.required_all strict_string id).map mk (by intros; constructor <;> assumption)
      |>.and (.withDefault_all strict_string name)
      |>.and (.withDefault_all strict_string apiKey)
      |>.and (.required Node.strict_decode.toFaithful.list nodes fun _ h => h.nodes)
      |>.and (.required ModelChoice.strict_decode defaultModel fun _ h => h.defaultModel)
      |>.and (.withDefault_all strict_bool enableTracing))
    (by decide)

end Workflow

end NodeRun
