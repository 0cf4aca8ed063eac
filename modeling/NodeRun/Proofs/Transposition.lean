import NodeRun.Workflow.Dataset

namespace NodeRun

namespace Table

theorem get?_filterMap {α β : Type} (f : String → α → Option β) (t : Table α) (k : String) :
    (t.filterMap f).get? k = (t.get? k).bind (f k) := by
  refine Option.ext fun b => ?_
  rw [← mem_entries_iff, Option.bind_eq_some_iff]
  constructor
  · intro hb
    obtain ⟨⟨name, a⟩, ha, hab⟩ := List.mem_filterMap.mp hb
    obtain ⟨x, hx, hkx⟩ := Option.map_eq_some_iff.mp hab
    cases hkx
    exact ⟨a, (mem_entries_iff t name a).mp ha, hx⟩
  · rintro ⟨a, ha, hb⟩
    refine List.mem_filterMap.mpr ⟨(k, a), (mem_entries_iff t k a).mpr ha, ?_⟩
    rw [hb, Option.map_some]

end Table

theorem filterMap_range_getElem? {α : Type} (xs : List α) (n : Nat) :
    (List.range n).filterMap (fun i => xs[i]?) = xs.take n := by
  induction n with
  | zero => rfl
  | succ n ih =>
    rw [List.range_succ, List.filterMap_append, ih, List.take_add_one]
    cases h : xs[n]? <;> simp [h]

namespace InlineDataset

variable {d d' : InlineDataset} {name : String} {vs : List Json} {i : Nat}

theorem mem_lengths (h : d.records.get? name = some vs) :
    vs.length ∈ d.records.values.map List.length := by
  have hmem := (Table.mem_entries_iff d.records name vs).mpr h
  exact List.mem_map_of_mem (List.mem_map_of_mem hmem)

theorem length_le_rows (h : d.records.get? name = some vs) : vs.length ≤ d.rows := by
  have hmem := mem_lengths h
  rw [rows, List.foldl_max]
  cases hm : (d.records.values.map List.length).max? with
  | none =>
    rw [List.max?_eq_none_iff.mp hm] at hmem
    cases hmem
  | some m => exact Nat.le_trans ((List.max?_eq_some_iff.mp hm).2 _ hmem) (Nat.le_max_right 0 m)

theorem exists_length_eq_rows (h : d.rows ≠ 0) :
    ∃ name vs, d.records.get? name = some vs ∧ vs.length = d.rows := by
  rw [rows, List.foldl_max] at h ⊢
  cases hm : (d.records.values.map List.length).max? with
  | none =>
    rw [hm] at h
    exact absurd rfl h
  | some m =>
    obtain ⟨vs, hvs, hlength⟩ := List.mem_map.mp (List.max?_eq_some_iff.mp hm).1
    obtain ⟨⟨name, _⟩, hmem, rfl⟩ := List.mem_map.mp hvs
    refine ⟨name, _, (Table.mem_entries_iff _ _ _).mp hmem, ?_⟩
    simpa using hlength

theorem get?_row (d : InlineDataset) (i : Nat) (name : String) :
    (d.row i).get? name = (d.records.get? name).bind (fun vs => vs[i]?) :=
  Table.get?_filterMap _ _ _

theorem length_examples (d : InlineDataset) : d.examples.length = d.rows := by
  rw [examples, List.length_map, List.length_range]

theorem filterMap_examples (h : d.records.get? name = some vs) :
    d.examples.filterMap (fun row => row.get? name) = vs := by
  have hrow (i : Nat) : (d.row i).get? name = vs[i]? := by
    rw [get?_row, h, Option.bind_some]
  rw [examples, List.filterMap_map]
  simp only [Function.comp_def, hrow]
  rw [filterMap_range_getElem?, List.take_of_length_le (length_le_rows h)]

theorem row_ne_empty (h : i < d.rows) : (d.row i).entries ≠ [] := by
  obtain ⟨name, vs, hvs, hlength⟩ := exists_length_eq_rows (d := d) (Nat.ne_zero_of_lt h)
  obtain ⟨v, hv⟩ : ∃ v, vs[i]? = some v := ⟨_, List.getElem?_eq_getElem (hlength ▸ h)⟩
  have hget : (d.row i).get? name = some v := by
    rw [get?_row, hvs, Option.bind_some, hv]
  exact List.ne_nil_of_mem ((Table.mem_entries_iff _ _ _).mpr hget)

def Filled (d : InlineDataset) (name : String) (vs : List Json) : Prop :=
  d.records.get? name = some vs ∧ vs ≠ []

theorem rows_le (h : ∀ name vs, d.Filled name vs → d'.Filled name vs) : d.rows ≤ d'.rows := by
  by_cases hrows : d.rows = 0
  · rw [hrows]
    exact Nat.zero_le _
  · obtain ⟨name, vs, hvs, hlength⟩ := exists_length_eq_rows hrows
    have hne : vs ≠ [] := fun hnil => hrows (by rw [← hlength, hnil, List.length_nil])
    rw [← hlength]
    exact length_le_rows (h name vs ⟨hvs, hne⟩).1

theorem get?_row_eq_some (d : InlineDataset) (i : Nat) (name : String) (v : Json) :
    (d.row i).get? name = some v ↔ ∃ vs, d.records.get? name = some vs ∧ vs[i]? = some v := by
  rw [get?_row, Option.bind_eq_some_iff]

theorem row_eq (h : ∀ name vs, d.Filled name vs ↔ d'.Filled name vs) (i : Nat) :
    d.row i = d'.row i := by
  refine Table.ext_get? fun name => Option.ext fun v => ?_
  rw [get?_row_eq_some, get?_row_eq_some]
  constructor
  · rintro ⟨vs, hvs, hv⟩
    have hne : vs ≠ [] := List.ne_nil_of_mem (List.mem_of_getElem? hv)
    exact ⟨vs, ((h name vs).mp ⟨hvs, hne⟩).1, hv⟩
  · rintro ⟨vs, hvs, hv⟩
    have hne : vs ≠ [] := List.ne_nil_of_mem (List.mem_of_getElem? hv)
    exact ⟨vs, ((h name vs).mpr ⟨hvs, hne⟩).1, hv⟩

theorem examples_eq (h : ∀ name vs, d.Filled name vs ↔ d'.Filled name vs) :
    d.examples = d'.examples := by
  have hrows : d.rows = d'.rows :=
    Nat.le_antisymm (rows_le fun name vs => (h name vs).mp) (rows_le fun name vs => (h name vs).mpr)
  rw [examples, examples, hrows]
  exact List.map_congr_left fun i _ => row_eq h i

theorem Filled.of_examples (h : d.Filled name vs) (he : d.examples = d'.examples) :
    d'.Filled name vs := by
  obtain ⟨hvs, hne⟩ := h
  have hcolumn := filterMap_examples hvs
  rw [he] at hcolumn
  cases hvs' : d'.records.get? name with
  | some vs' =>
    rw [filterMap_examples hvs'] at hcolumn
    exact ⟨hcolumn ▸ hvs', hne⟩
  | none =>
    -- No row has a value under a name that no column has.
    have hnone : ∀ row ∈ d'.examples, row.get? name = none := by
      refine List.forall_mem_map.mpr fun i _ => ?_
      rw [get?_row, hvs', Option.bind_none]
    exact absurd (hcolumn.symm.trans (List.filterMap_eq_nil_iff.mpr hnone)) hne

end InlineDataset

structure Transposes (columns : Table (List Json)) (rows : List (Table Json)) : Prop where
  longest : ∀ name vs, columns.get? name = some vs → vs.length ≤ rows.length
  reached : rows ≠ [] → ∃ name vs, columns.get? name = some vs ∧ vs.length = rows.length
  value : ∀ (i : Nat) (row : Table Json), rows[i]? = some row → ∀ name v,
    row.get? name = some v ↔ ∃ vs, columns.get? name = some vs ∧ vs[i]? = some v
  filled : ∀ row ∈ rows, row.entries ≠ []
  column : ∀ name vs, columns.get? name = some vs →
    rows.filterMap (fun row : Table Json => row.get? name) = vs

namespace Transposes

variable {columns : Table (List Json)} {rows rows' : List (Table Json)}

theorem length_le (h : Transposes columns rows) (h' : Transposes columns rows') :
    rows.length ≤ rows'.length := by
  by_cases hnil : rows = []
  · rw [hnil]
    exact Nat.zero_le _
  · obtain ⟨name, vs, hvs, hlength⟩ := h.reached hnil
    rw [← hlength]
    exact h'.longest name vs hvs

theorem unique (h : Transposes columns rows) (h' : Transposes columns rows') : rows = rows' := by
  have hlength := Nat.le_antisymm (h.length_le h') (h'.length_le h)
  refine List.ext_getElem hlength fun i hi hi' => Table.ext_get? fun name => Option.ext fun v => ?_
  rw [h.value i _ (List.getElem?_eq_getElem hi), h'.value i _ (List.getElem?_eq_getElem hi')]

end Transposes

namespace InlineDataset

theorem transposes_examples (d : InlineDataset) : Transposes d.records d.examples where
  longest := by
    intro name vs hvs
    rw [length_examples]
    exact length_le_rows hvs
  reached := by
    intro hne
    rw [length_examples]
    refine exists_length_eq_rows fun hrows => hne ?_
    rw [examples, hrows, List.range_zero, List.map_nil]
  value := by
    intro i row hrow name v
    rw [examples, List.getElem?_map] at hrow
    obtain ⟨j, hj, rfl⟩ := Option.map_eq_some_iff.mp hrow
    obtain ⟨hi, rfl⟩ := List.getElem?_eq_some_iff.mp hj
    rw [List.getElem_range, get?_row_eq_some]
  filled := List.forall_mem_map.mpr fun i hi => row_ne_empty (List.mem_range.mp hi)
  column := fun name vs hvs => filterMap_examples hvs

theorem examples_exact (d : InlineDataset) :
    Transposes d.records d.examples ∧
    (∀ rows, Transposes d.records rows → rows = d.examples) ∧
    ∀ d' : InlineDataset,
      d.examples = d'.examples ↔ ∀ name vs, d.Filled name vs ↔ d'.Filled name vs := by
  refine ⟨d.transposes_examples, fun rows h => h.unique d.transposes_examples, fun d' => ?_⟩
  constructor
  · exact fun he name vs => ⟨fun h => h.of_examples he, fun h => h.of_examples he.symm⟩
  · exact examples_eq

def ragged : InlineDataset :=
  ⟨.ofList [("a", [.int 1, .int 2]), ("b", [.null]), ("c", [])], none⟩

def swapped : InlineDataset := ⟨.ofList [("a", [.int 2, .int 1]), ("b", [.null])], none⟩

theorem examples_exact_ragged :
    (ragged.records.get? "a" = some [.int 1, .int 2] ∧
      ragged.examples.filterMap (fun row => row.get? "a") = [.int 1, .int 2]) ∧
    (ragged.examples[1]? = some (.ofList [("a", .int 2)]) ∧
      Table.entries (.ofList [("a", Json.int 2)]) ≠ []) ∧
    (Transposes ragged.records
        [.ofList [("a", .int 1), ("b", .null)], .ofList [("a", .int 2)]] ∧
      [.ofList [("a", .int 1), ("b", .null)], .ofList [("a", .int 2)]] = ragged.examples) ∧
    ragged.examples ≠ swapped.examples := by
  obtain ⟨htransposes, hunique, hsame⟩ := examples_exact ragged
  have ha : ragged.records.get? "a" = some [.int 1, .int 2] := rfl
  have hrow : ragged.examples[1]? = some (.ofList [("a", .int 2)]) := rfl
  have hrows : Transposes ragged.records
      [.ofList [("a", .int 1), ("b", .null)], .ofList [("a", .int 2)]] := htransposes
  refine ⟨⟨ha, htransposes.column "a" _ ha⟩, ⟨hrow, ?_⟩, ⟨hrows, hunique _ hrows⟩, fun he => ?_⟩
  · exact htransposes.filled _ (List.mem_of_getElem? hrow)
  · obtain ⟨hget, -⟩ := ((hsame swapped).mp he "a" [.int 1, .int 2]).mp ⟨ha, by simp⟩
    exact absurd hget (by decide)

end InlineDataset

end NodeRun
