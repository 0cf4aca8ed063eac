import NodeRun.Json.Decode
import NodeRun.Json.Encode

namespace NodeRun

namespace Real64

theorem magnitude_ofMagnitude (b : Bool) (m : Nat) :
    (ofMagnitude b m).magnitude = min m (0x7ff * hiddenBit) := by
  have h : min m (0x7ff * 0x10000000000000) < 0x8000000000000000 := by omega
  rw [magnitude, ofMagnitude, UInt64.toNat_ofNat']
  simp only [hiddenBit, signBit]
  split <;> omega

theorem isFinite_ofMagnitude {b : Bool} {m : Nat} (h : m < 0x7ff * hiddenBit) :
    (ofMagnitude b m).isFinite = true := by
  simp only [isFinite, magnitude_ofMagnitude, decide_eq_true_eq]
  omega

theorem roundNearest_le (tie : Tie) (num den : Nat) :
    roundNearest tie num den ≤ num / den + 1 := by
  simp only [roundNearest]
  split
  · exact Nat.le_succ _
  · split
    · exact Nat.le_refl _
    · split
      · exact Nat.le_succ _
      · exact Nat.le_refl _

/-- An integer of 64 bits has its unit among these, and not more than 54 bits in it. -/
theorem inUnits_div_lt {num : Nat} {e : Int} (he : (num.log2 : Int) - 53 ≤ e) :
    (inUnits num 1 e).1 / (inUnits num 1 e).2 < 0x40000000000000 := by
  have hnum : num < 2 ^ (num.log2 + 1) := Nat.lt_log2_self
  unfold inUnits
  split
  · rename_i h
    rw [Nat.one_mul, Nat.pow_eq, Nat.div_lt_iff_lt_mul (Nat.two_pow_pos _)]
    calc num < 2 ^ (num.log2 + 1) := hnum
      _ ≤ 2 ^ (54 + e.toNat) := Nat.pow_le_pow_right (by omega) (by omega)
      _ = 0x40000000000000 * 2 ^ e.toNat := Nat.pow_add ..
  · rename_i h
    rw [Nat.div_one, Nat.pow_eq]
    calc num * 2 ^ (-e).toNat
        < 2 ^ (num.log2 + 1) * 2 ^ (-e).toNat :=
          Nat.mul_lt_mul_of_pos_right hnum (Nat.two_pow_pos _)
      _ = 2 ^ (num.log2 + 1 + (-e).toNat) := (Nat.pow_add ..).symm
      _ ≤ 2 ^ 54 := Nat.pow_le_pow_right (by omega) (by omega)

theorem ofRatio_of_ne {b : Bool} {num den n d : Nat} {e : Int} (hn : num ≠ 0)
    (he : unitOf num den = e) (h : inUnits num den e = (n, d)) :
    ofRatio b num den =
      ofMagnitude b ((e + 1074).toNat * hiddenBit + roundNearest .even n d) := by
  rw [ofRatio, if_neg hn, he]
  simp only [h]

theorem isFinite_ofRatio_one {b : Bool} {num : Nat} (h : num < 0x10000000000000000) :
    (ofRatio b num 1).isFinite = true := by
  by_cases hn : num = 0
  · have hzero : ofRatio b num 1 = ofMagnitude b 0 := if_pos hn
    rw [hzero]
    exact isFinite_ofMagnitude (by simp [hiddenBit])
  · have hlog : num.log2 < 64 := (Nat.log2_lt hn).mpr h
    have hone : Nat.log2 1 = 0 := by decide
    have hunit : (num.log2 : Int) - 53 ≤ unitOf num 1 ∧ unitOf num 1 ≤ 11 := by
      simp only [unitOf, hone]
      split <;> omega
    generalize he : unitOf num 1 = e at hunit
    have hdiv := inUnits_div_lt hunit.1
    cases hnd : inUnits num 1 e with
    | mk n d =>
      rw [ofRatio_of_ne hn he hnd]
      have hround := roundNearest_le .even n d
      have hmul := Nat.mul_le_mul_right hiddenBit (show (e + 1074).toNat ≤ 1085 by omega)
      refine isFinite_ofMagnitude ?_
      simp only [hnd, hiddenBit] at hmul hdiv ⊢
      omega

end Real64

namespace Json

def IsWord (n : Int) : Prop := -0x8000000000000000 ≤ n ∧ n < 0x10000000000000000

theorem IsWord.isFinite {n : Int} (h : IsWord n) : (Real64.ofInt n).isFinite = true := by
  obtain ⟨hl, hu⟩ := h
  exact Real64.isFinite_ofRatio_one (by omega)

mutual

/-- A value that a program can hold. -/
def Proper : Json → Prop
  | .int n => IsWord n
  | .real x => x.isFinite = true
  | .arr items => ProperItems items
  | .obj members => Entries.Sorted members ∧ ProperMembers members
  | _ => True

def ProperItems : List Json → Prop
  | [] => True
  | j :: js => Proper j ∧ ProperItems js

def ProperMembers : List (String × Json) → Prop
  | [] => True
  | (_, j) :: js => Proper j ∧ ProperMembers js

end

theorem properItems_iff {js : List Json} : ProperItems js ↔ ∀ j ∈ js, Proper j := by
  induction js with
  | nil => simp [ProperItems]
  | cons j js ih => simp [ProperItems, ih]

theorem properMembers_iff {ms : List (String × Json)} :
    ProperMembers ms ↔ ∀ e ∈ ms, Proper e.2 := by
  induction ms with
  | nil => simp [ProperMembers]
  | cons e ms ih => simp [ProperMembers, ih]

theorem proper_arr {js : List Json} : Proper (.arr js) ↔ ∀ j ∈ js, Proper j := by
  rw [Proper, properItems_iff]

theorem proper_obj {ms : List (String × Json)} :
    Proper (.obj ms) ↔ Entries.Sorted ms ∧ ∀ e ∈ ms, Proper e.2 := by
  rw [Proper, properMembers_iff]

mutual

theorem Proper.normal : ∀ {j : Json}, j.Proper → j.Normal
  | .null, _ => by simp [Normal]
  | .bool _, _ => by simp [Normal]
  | .int _, _ => by simp [Normal]
  | .real _, h => by simpa [Normal, Proper] using h
  | .str _, _ => by simp [Normal]
  | .arr _, h => by
    simp only [Proper] at h
    simpa only [Normal] using ProperItems.normal h
  | .obj _, h => by
    simp only [Proper] at h
    simpa only [Normal] using ⟨h.1, ProperMembers.normal h.2⟩

theorem ProperItems.normal : ∀ {js : List Json}, ProperItems js → NormalItems js
  | [], _ => by simp [NormalItems]
  | _ :: _, h => by
    simp only [ProperItems] at h
    simpa only [NormalItems] using ⟨h.1.normal, ProperItems.normal h.2⟩

theorem ProperMembers.normal : ∀ {ms : List (String × Json)}, ProperMembers ms → NormalMembers ms
  | [], _ => by simp [NormalMembers]
  | (_, _) :: _, h => by
    simp only [ProperMembers] at h
    simpa only [NormalMembers] using ⟨h.1.normal, ProperMembers.normal h.2⟩

end

theorem Proper.normalize_eq {j : Json} (h : j.Proper) : j.normalize = j :=
  normalize_of_normal h.normal

theorem normalizeItems_eq_map (js : List Json) : normalizeItems js = js.map normalize := by
  induction js with
  | nil => rfl
  | cons j js ih => simp [normalizeItems, ih]

theorem normalizeMembers_eq_map (ms : List (String × Json)) :
    normalizeMembers ms = ms.map (fun e => (e.1, e.2.normalize)) := by
  induction ms with
  | nil => rfl
  | cons e ms ih => simp [normalizeMembers, ih]

end Json

namespace Doc

theorem ofItems_eq_map (js : List Json) : ofItems js = js.map ofJson := by
  induction js with
  | nil => rfl
  | cons j js ih => simp [ofItems, ih]

theorem ofMembers_eq_map (ms : List (String × Json)) :
    ofMembers ms = ms.map (fun e => (⟨e.1, none⟩, ofJson e.2)) := by
  induction ms with
  | nil => rfl
  | cons e ms ih => simp [ofMembers, ih]

theorem ofMembers_filter (p : String → Bool) (ms : List (String × Json)) :
    (ofMembers ms).filter (fun e => p e.1.name) = ofMembers (ms.filter (fun e => p e.1)) := by
  rw [ofMembers_eq_map, ofMembers_eq_map, List.filter_map]
  rfl

mutual

theorem skipFault?_ofJson : ∀ j : Json, (ofJson j).skipFault? = none
  | .null => rfl
  | .bool _ => rfl
  | .int _ => rfl
  | .real _ => rfl
  | .str _ => rfl
  | .arr items => by simp [ofJson, skipFault?, itemsSkipFault?_ofItems items]
  | .obj members => by simp [ofJson, skipFault?, membersSkipFault?_ofMembers members]

theorem itemsSkipFault?_ofItems : ∀ js : List Json, itemsSkipFault? (ofItems js) = none
  | [] => rfl
  | j :: js => by
    simp [ofItems, itemsSkipFault?, skipFault?_ofJson j, itemsSkipFault?_ofItems js]

theorem membersSkipFault?_ofMembers :
    ∀ js : List (String × Json), membersSkipFault? (ofMembers js) = none
  | [] => rfl
  | (_, j) :: js => by
    simp [ofMembers, membersSkipFault?, skipFault?_ofJson j, membersSkipFault?_ofMembers js]

end

end Doc

namespace Entries

variable {α : Type}

theorem get?_eq_none_of_not_mem {es : List (String × α)} {k : String} (h : k ∉ es.map Prod.fst) :
    get? es k = none := by
  cases hg : get? es k with
  | none => rfl
  | some v => exact absurd (List.mem_map_of_mem (mem_of_get?_eq_some hg)) h

theorem get?_foldl_insert {es acc : List (String × α)} (h : (es.map Prod.fst).Nodup) (k : String) :
    get? (es.foldl (fun acc e => insert e.1 e.2 acc) acc) k = (get? es k <|> get? acc k) := by
  induction es generalizing acc with
  | nil => simp [get?_nil]
  | cons e es ih =>
    obtain ⟨he, hes⟩ := List.nodup_cons.mp h
    rw [List.foldl_cons, ih hes, get?_insert, get?_cons]
    by_cases hk : e.1 = k
    · subst hk
      simp [get?_eq_none_of_not_mem he]
    · simp [hk]

theorem get?_collect {es : List (String × α)} (h : (es.map Prod.fst).Nodup) (k : String) :
    get? (collect es) k = get? es k := by
  rw [collect, get?_foldl_insert h]
  simp [get?_nil]

theorem mem_collect {es : List (String × α)} {e : String × α} (h : e ∈ collect es) : e ∈ es := by
  suffices hacc : ∀ acc : List (String × α),
      e ∈ es.foldl (fun acc e => insert e.1 e.2 acc) acc → e ∈ acc ∨ e ∈ es from
    (hacc [] h).resolve_left List.not_mem_nil
  clear h
  induction es with
  | nil => exact fun _ h => .inl h
  | cons a es ih =>
    intro acc h
    rcases ih _ h with h | h
    · exact (fst_mem_insert h).elim (fun h => .inr (h ▸ List.mem_cons_self)) .inl
    · exact .inr (List.mem_cons_of_mem _ h)

theorem get?_map {β : Type} (f : α → β) (es : List (String × α)) (k : String) :
    get? (es.map (fun e => (e.1, f e.2))) k = (get? es k).map f := by
  induction es with
  | nil => rfl
  | cons e es ih =>
    rw [List.map_cons, get?_cons, get?_cons, ih]
    split <;> rfl

theorem get?_filter {es : List (String × α)} {p : String → Bool} {k : String} (h : p k = true) :
    get? (es.filter (fun e => p e.1)) k = get? es k := by
  induction es with
  | nil => rfl
  | cons e es ih =>
    rw [List.filter_cons, get?_cons]
    split
    · rw [get?_cons, ih]
    · rename_i he
      have hk : e.1 ≠ k := fun hk => he (hk ▸ h)
      rw [if_neg hk, ih]

end Entries

namespace Json

mutual

theorem normalize_normalize : ∀ j : Json, j.normalize.normalize = j.normalize
  | .null => rfl
  | .bool _ => rfl
  | .int _ => rfl
  | .real _ => rfl
  | .str _ => rfl
  | .arr items => by simp only [normalize, normalizeItems_normalizeItems items]
  | .obj members => by
    have hfixed : normalizeMembers (Entries.collect (normalizeMembers members)) =
        Entries.collect (normalizeMembers members) := by
      rw [normalizeMembers_eq_map]
      refine (List.map_congr_left fun e he => ?_).trans (List.map_id _)
      exact congrArg (Prod.mk e.1)
        (normalize_of_mem_normalizeMembers members e (Entries.mem_collect he))
    rw [normalize, normalize, hfixed, Entries.collect_of_sorted (Entries.sorted_collect _)]

theorem normalizeItems_normalizeItems :
    ∀ js : List Json, normalizeItems (normalizeItems js) = normalizeItems js
  | [] => rfl
  | j :: js => by
    simp only [normalizeItems, normalize_normalize j, normalizeItems_normalizeItems js]

theorem normalize_of_mem_normalizeMembers :
    ∀ ms : List (String × Json), ∀ e ∈ normalizeMembers ms, e.2.normalize = e.2
  | [] => nofun
  | (_, j) :: ms => List.forall_mem_cons.mpr
    ⟨normalize_normalize j, normalize_of_mem_normalizeMembers ms⟩

end

theorem fst_present_subset (fs : List (String × Option Json)) :
    List.Sublist ((present fs).map Prod.fst) (fs.map Prod.fst) := by
  induction fs with
  | nil => exact .slnil
  | cons e fs ih =>
    obtain ⟨k, v⟩ := e
    cases v with
    | none => exact ih.cons k
    | some j => exact ih.cons_cons k

theorem get?_present {fs : List (String × Option Json)} (h : (fs.map Prod.fst).Nodup)
    {e : String × Option Json} (he : e ∈ fs) : Entries.get? (present fs) e.1 = e.2 := by
  induction fs with
  | nil => cases he
  | cons f fs ih =>
    obtain ⟨hf, hfs⟩ := List.nodup_cons.mp h
    have hcons : Entries.get? (present (f :: fs)) e.1 =
        if f.1 = e.1 ∧ f.2.isSome then f.2 else Entries.get? (present fs) e.1 := by
      obtain ⟨k, v⟩ := f
      cases v with
      | none => simp [present]
      | some j =>
        show Entries.get? ((k, j) :: present fs) e.1 = _
        simp [Entries.get?_cons]
    rw [hcons]
    rcases List.mem_cons.mp he with rfl | he
    · cases hv : e.2 with
      | some j => simp
      | none =>
        have hnot : e.1 ∉ (present fs).map Prod.fst := fun hm =>
          hf ((fst_present_subset fs).subset hm)
        simp [Entries.get?_eq_none_of_not_mem hnot]
    · have hne : f.1 ≠ e.1 := fun hfe => hf (hfe ▸ List.mem_map_of_mem he)
      simp [hne, ih hfs he]

theorem proper_record {fs : List (String × Option Json)}
    (h : ∀ e ∈ fs, ∀ v ∈ e.2, v.normalize.Proper) : (record fs).normalize.Proper := by
  refine proper_obj.mpr ⟨Entries.sorted_collect _, fun e he => ?_⟩
  have hmem := Entries.mem_collect he
  rw [normalizeMembers_eq_map] at hmem
  obtain ⟨m, hm, rfl⟩ := List.mem_map.mp hmem
  obtain ⟨f, hf, hfm⟩ := List.mem_filterMap.mp hm
  obtain ⟨v, hv, rfl⟩ := Option.map_eq_some_iff.mp hfm
  exact h f hf v hv

def Shows (j : Json) (fs : List (String × Option Json)) : Prop :=
  ∃ ms, j = .obj ms ∧ Entries.Sorted ms ∧ ∀ e ∈ fs, Entries.get? ms e.1 = e.2.map normalize

theorem shows_record {fs : List (String × Option Json)} (h : (fs.map Prod.fst).Nodup) :
    (record fs).normalize.Shows fs := by
  have hp : ((normalizeMembers (present fs)).map Prod.fst).Nodup := by
    rw [normalizeMembers_eq_map, List.map_map]
    exact (fst_present_subset fs).nodup h
  refine ⟨_, rfl, Entries.sorted_collect _, fun e he => ?_⟩
  rw [Entries.get?_collect hp, normalizeMembers_eq_map, Entries.get?_map, get?_present h he]

theorem shows_filter {ms : List (String × Json)} {fs : List (String × Option Json)}
    {p : String → Bool} (hsorted : Entries.Sorted ms)
    (hms : ∀ e ∈ fs, Entries.get? ms e.1 = e.2.map normalize) (hp : ∀ e ∈ fs, p e.1 = true) :
    (obj (ms.filter (fun e => p e.1))).Shows fs :=
  ⟨_, rfl, hsorted.filter _, fun e he => (Entries.get?_filter (hp e he)).trans (hms e he)⟩

end Json

end NodeRun
