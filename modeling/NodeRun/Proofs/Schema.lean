import Mathlib.Data.List.Duplicate
import Mathlib.Data.List.Forall2
import NodeRun.Model.Schema

namespace NodeRun

namespace Component

def inputNames (c : Component) : List String := c.inputFields.map Field.identifier

def outputNames (c : Component) : List String := c.outputFields.map Field.identifier

end Component

theorem duplicate_of_repeated? {names : List String} {i : String} (h : repeated? names = some i) :
    names.Duplicate i := by
  obtain ⟨before, after, rfl, hi⟩ := mem_of_repeatedAfter?_eq_some h
  have hbefore : 0 < before.count i := List.count_pos_iff.mpr (hi.resolve_left List.not_mem_nil)
  rw [List.duplicate_iff_two_le_count, List.count_append, List.count_cons_self]
  omega

namespace SchemaSlot

structure Mirrors (d : Direction) (f : Field) (x : SchemaSlot) : Prop where
  name : x.name = f.identifier
  type : x.type = f.type
  direction : x.direction = d
  desc : x.desc = f.desc
  optional : x.optional = true ↔ f.optional = some true

theorem mirrors_ofField (d : Direction) (f : Field) : (ofField d f).Mirrors d f := by
  refine ⟨rfl, rfl, rfl, rfl, ?_⟩
  cases h : f.optional <;> simp [ofField, h]

theorem forall₂_mirrors (d : Direction) (fs : List Field) :
    List.Forall₂ (Mirrors d) fs (fs.map (ofField d)) :=
  List.forall₂_map_right_iff.mpr (List.forall₂_same.mpr fun f _ => mirrors_ofField d f)

theorem map_name (d : Direction) (fs : List Field) :
    (fs.map (ofField d)).map name = fs.map Field.identifier := by
  rw [List.map_map]
  rfl

theorem find?_name_of_getElem? {slots : List SchemaSlot} (h : (slots.map name).Nodup) {n : Nat}
    {x : SchemaSlot} (hx : slots[n]? = some x) :
    slots.find? (fun y => y.name = x.name) = some x := by
  induction slots generalizing n with
  | nil => cases hx
  | cons y slots ih =>
    obtain ⟨hy, hslots⟩ := List.nodup_cons.mp h
    cases n with
    | zero =>
      cases hx
      exact List.find?_cons_of_pos (by simp)
    | succ n =>
      have hmem : x.name ∈ slots.map name := List.mem_map_of_mem (List.mem_of_getElem? hx)
      have hne : y.name ≠ x.name := fun he => hy (he ▸ hmem)
      rw [List.find?_cons_of_neg (by simpa using hne)]
      exact ih hslots hx

end SchemaSlot

namespace Schema

variable {s : Signature}

structure Distinct (s : Signature) : Prop where
  inputs : s.component.inputNames.Nodup
  outputs : s.component.outputNames.Nodup
  apart : ∀ i ∈ s.component.outputNames, i ∉ s.component.inputNames

/-- The fault names an identifier that stands for two slots of the signature. -/
inductive Blames (s : Signature) (i : String) : ConfigurationFault → Prop
  | input (h : s.component.inputNames.Duplicate i) :
    Blames s i (.duplicateSlot (nameOf s) .input i)
  | output (h : s.component.outputNames.Duplicate i) :
    Blames s i (.duplicateSlot (nameOf s) .output i)
  | shared (hi : i ∈ s.component.inputNames) (ho : i ∈ s.component.outputNames) :
    Blames s i (.sharedSlot (nameOf s) i)

theorem Blames.message {i : String} {f : ConfigurationFault} (h : Blames s i f) :
    ∃ before after, f.message = before ++ inQuotes i ++ after := by
  cases h with
  | input => exact ⟨_, "", String.append_empty.symm⟩
  | output => exact ⟨_, "", String.append_empty.symm⟩
  | shared => exact ⟨_, _, rfl⟩

def mirror (s : Signature) : Schema :=
  ⟨nameOf s, s.prompt.filter (fun p => p ≠ ""),
    s.component.inputFields.map (SchemaSlot.ofField .input),
    s.component.outputFields.map (SchemaSlot.ofField .output)⟩

theorem slotsOf_of_nodup (name : String) (d : Direction) {fs : List Field}
    (h : (fs.map Field.identifier).Nodup) :
    slotsOf name d fs = .ok (fs.map (SchemaSlot.ofField d)) := by
  simp [slotsOf, repeated?_eq_none_iff.mpr h]

theorem slotsOf_of_repeated (name : String) (d : Direction) {fs : List Field}
    (h : ¬ (fs.map Field.identifier).Nodup) :
    ∃ i, (fs.map Field.identifier).Duplicate i ∧
      slotsOf name d fs = .error (.configuration (.duplicateSlot name d i)) := by
  cases hr : repeated? (fs.map Field.identifier) with
  | none => exact absurd (repeated?_eq_none_iff.mp hr) h
  | some i => exact ⟨i, duplicate_of_repeated? hr, by simp [slotsOf, hr]⟩

def shared? (s : Signature) : Option SchemaSlot :=
  (mirror s).outputs.find? (fun o => (mirror s).inputs.any (fun i => i.name = o.name))

theorem mem_names_of_mem {d : Direction} {fs : List Field} {x : SchemaSlot}
    (h : x ∈ fs.map (SchemaSlot.ofField d)) : x.name ∈ fs.map Field.identifier := by
  rw [← SchemaSlot.map_name d]
  exact List.mem_map_of_mem h

theorem any_name_iff {d : Direction} {fs : List Field} {i : String} :
    (fs.map (SchemaSlot.ofField d)).any (fun x => x.name = i) = true ↔
      i ∈ fs.map Field.identifier := by
  rw [← SchemaSlot.map_name d]
  simp only [List.any_eq_true, List.mem_map, decide_eq_true_eq]

theorem mem_of_shared? {o : SchemaSlot} (h : shared? s = some o) :
    o.name ∈ s.component.inputNames ∧ o.name ∈ s.component.outputNames := by
  unfold shared? at h
  have hany : (mirror s).inputs.any (fun i => i.name = o.name) = true := by
    simpa only using List.find?_some h
  exact ⟨any_name_iff.mp hany, mem_names_of_mem (List.mem_of_find?_eq_some h)⟩

theorem apart_of_shared? (h : shared? s = none) :
    ∀ i ∈ s.component.outputNames, i ∉ s.component.inputNames := by
  intro i ho hi
  obtain ⟨f, hf, rfl⟩ := List.mem_map.mp ho
  have hslot : SchemaSlot.ofField .output f ∈ (mirror s).outputs := List.mem_map_of_mem hf
  exact List.find?_eq_none.mp h _ hslot (any_name_iff.mpr hi)

theorem ofSignature_eq (hi : s.component.inputNames.Nodup) (ho : s.component.outputNames.Nodup) :
    ofSignature s =
      match shared? s with
      | some o => .error (.configuration (.sharedSlot (nameOf s) o.name))
      | none => .ok (mirror s) := by
  have hi' := slotsOf_of_nodup (nameOf s) .input hi
  have ho' := slotsOf_of_nodup (nameOf s) .output ho
  simp only [ofSignature, hi', ho', bind, Except.bind]
  rfl

theorem ofSignature_of_distinct (h : Distinct s) : ofSignature s = .ok (mirror s) := by
  rw [ofSignature_eq h.inputs h.outputs]
  split
  · rename_i o hs
    obtain ⟨hi, ho⟩ := mem_of_shared? hs
    exact absurd hi (h.apart _ ho)
  · rfl

theorem ofSignature_of_ambiguous (h : ¬ Distinct s) :
    ∃ f i, Blames s i f ∧ ofSignature s = .error (.configuration f) := by
  by_cases hi : s.component.inputNames.Nodup
  · by_cases ho : s.component.outputNames.Nodup
    · cases hs : shared? s with
      | none => exact absurd ⟨hi, ho, apart_of_shared? hs⟩ h
      | some o =>
        obtain ⟨hoi, hoo⟩ := mem_of_shared? hs
        exact ⟨_, o.name, .shared hoi hoo, by rw [ofSignature_eq hi ho, hs]⟩
    · have hi' := slotsOf_of_nodup (nameOf s) .input hi
      obtain ⟨i, hd, ho'⟩ := slotsOf_of_repeated (nameOf s) .output ho
      exact ⟨_, i, .output hd, by simp [ofSignature, hi', ho', bind, Except.bind]⟩
  · obtain ⟨i, hd, hi'⟩ := slotsOf_of_repeated (nameOf s) .input hi
    exact ⟨_, i, .input hd, by simp [ofSignature, hi', bind, Except.bind]⟩

theorem ofSignature_eq_ok_iff {schema : Schema} :
    ofSignature s = .ok schema ↔ Distinct s ∧ schema = mirror s := by
  by_cases h : Distinct s
  · rw [ofSignature_of_distinct h]
    exact ⟨fun hs => ⟨h, (Except.ok.inj hs).symm⟩, fun hs => congrArg _ hs.2.symm⟩
  · obtain ⟨f, i, -, hf⟩ := ofSignature_of_ambiguous h
    rw [hf]
    exact ⟨nofun, fun hs => absurd hs.1 h⟩

theorem nameOf_ne_empty (s : Signature) : nameOf s ≠ "" := by
  unfold nameOf
  cases hn : s.component.name.filter (fun n => n ≠ "") with
  | none => decide
  | some n => simpa using (Option.filter_eq_some_iff.mp hn).2

theorem names_nodup (h : Distinct s) :
    (((mirror s).inputs ++ (mirror s).outputs).map SchemaSlot.name).Nodup := by
  rw [List.map_append, mirror, SchemaSlot.map_name, SchemaSlot.map_name, List.nodup_append]
  exact ⟨h.inputs, h.outputs, fun i hi j hj hij => h.apart j hj (hij ▸ hi)⟩

theorem slot?_input (h : Distinct s) {n : Nat} {f : Field}
    (hf : s.component.inputFields[n]? = some f) :
    (mirror s).slot? f.identifier = (mirror s).inputs[n]? := by
  have hslot : (mirror s).inputs[n]? = some (SchemaSlot.ofField .input f) := by
    simp [mirror, hf]
  have hbound : n < (mirror s).inputs.length := (List.getElem?_eq_some_iff.mp hslot).1
  rw [hslot]
  refine SchemaSlot.find?_name_of_getElem? (x := .ofField .input f) (n := n) (names_nodup h) ?_
  rw [List.getElem?_append_left hbound, hslot]

theorem slot?_output (h : Distinct s) {n : Nat} {f : Field}
    (hf : s.component.outputFields[n]? = some f) :
    (mirror s).slot? f.identifier = (mirror s).outputs[n]? := by
  have hslot : (mirror s).outputs[n]? = some (SchemaSlot.ofField .output f) := by
    simp [mirror, hf]
  rw [hslot]
  refine SchemaSlot.find?_name_of_getElem? (x := .ofField .output f)
    (n := (mirror s).inputs.length + n) (names_nodup h) ?_
  rw [List.getElem?_append_right (Nat.le_add_right _ _), Nat.add_sub_cancel_left, hslot]

theorem slot?_undeclared {i : String} (hi : i ∉ s.component.inputNames)
    (ho : i ∉ s.component.outputNames) : (mirror s).slot? i = none := by
  refine List.find?_eq_none.mpr fun x hx hname => ?_
  have hxi : x.name = i := by simpa using hname
  rcases List.mem_append.mp hx with hx | hx
  · exact hi (hxi ▸ mem_names_of_mem hx)
  · exact ho (hxi ▸ mem_names_of_mem hx)

theorem ofSignature_exact (s : Signature) :
    ((∃ schema, ofSignature s = .ok schema) ↔ Distinct s) ∧
    (¬ Distinct s → ∃ f i, ofSignature s = .error (.configuration f) ∧ Blames s i f ∧
      ∃ before after, f.message = before ++ inQuotes i ++ after) ∧
    ∀ schema, ofSignature s = .ok schema →
      schema.name ≠ "" ∧ (∀ n, s.component.name = some n → n ≠ "" → schema.name = n) ∧
      List.Forall₂ (SchemaSlot.Mirrors .input) s.component.inputFields schema.inputs ∧
      List.Forall₂ (SchemaSlot.Mirrors .output) s.component.outputFields schema.outputs ∧
      (∀ (n : Nat) (f : Field), s.component.inputFields[n]? = some f →
        schema.slot? f.identifier = schema.inputs[n]?) ∧
      (∀ (n : Nat) (f : Field), s.component.outputFields[n]? = some f →
        schema.slot? f.identifier = schema.outputs[n]?) ∧
      ∀ i, i ∉ s.component.inputNames → i ∉ s.component.outputNames → schema.slot? i = none := by
  refine ⟨⟨?_, fun h => ⟨_, ofSignature_of_distinct h⟩⟩, fun h => ?_, fun schema h => ?_⟩
  · rintro ⟨schema, h⟩
    exact (ofSignature_eq_ok_iff.mp h).1
  · obtain ⟨f, i, hblames, hf⟩ := ofSignature_of_ambiguous h
    exact ⟨f, i, hf, hblames, hblames.message⟩
  · obtain ⟨hd, rfl⟩ := ofSignature_eq_ok_iff.mp h
    refine ⟨nameOf_ne_empty s, fun n hn hne => ?_, SchemaSlot.forall₂_mirrors _ _,
      SchemaSlot.forall₂_mirrors _ _, fun n f hf => slot?_input hd hf,
      fun n f hf => slot?_output hd hf, fun i hi ho => slot?_undeclared hi ho⟩
    have hfilter : (some n).filter (fun n => n ≠ "") = some n := by simp [Option.filter, hne]
    rw [mirror, nameOf, hn, hfilter]
    rfl

def between (inputs outputs : List Field) : Signature :=
  ⟨{ Component.unset with inputs := some inputs, outputs := some outputs }, none, none, none⟩

theorem ofSignature_exact_between :
    let s :=
      between [.named "q" .str] [.named "a" .str, { Field.named "b" .int with optional := true }]
    let t := between [.named "q" .str] [.named "a" .str, .named "q" .int]
    (∃ schema, ofSignature s = .ok schema ∧ schema.name ≠ "" ∧
      schema.slot? "b" = schema.outputs[1]?) ∧
    ¬ Distinct t ∧ ∃ f i, ofSignature t = .error (.configuration f) ∧ Blames t i f := by
  intro s t
  have hs : ofSignature s = .ok (mirror s) := rfl
  have ht : ¬ Distinct t := fun h => h.apart "q" (by decide) (by decide)
  obtain ⟨-, -, hok⟩ := ofSignature_exact s
  obtain ⟨hname, -, -, -, -, hslot, -⟩ := hok _ hs
  obtain ⟨f, i, hf, hblames, -⟩ := (ofSignature_exact t).2.1 ht
  exact ⟨⟨_, hs, hname, hslot 1 _ rfl⟩, ht, f, i, hf, hblames⟩

end Schema

end NodeRun
