namespace NodeRun

theorem name_trichotomy (a b : String) : a < b ∨ a = b ∨ b < a := by
  by_cases h : a < b
  · exact .inl h
  · by_cases h' : b < a
    · exact .inr (.inr h')
    · exact .inr (.inl (String.le_antisymm (String.not_lt.mp h') (String.not_lt.mp h)))

namespace Entries

variable {α : Type}

def Sorted (es : List (String × α)) : Prop :=
  es.Pairwise (fun a b => a.1 < b.1)

def get? (es : List (String × α)) (k : String) : Option α :=
  (es.find? (fun e => e.1 = k)).map Prod.snd

def insert (k : String) (v : α) : List (String × α) → List (String × α)
  | [] => [(k, v)]
  | e :: es =>
    if k < e.1 then (k, v) :: e :: es
    else if k = e.1 then (k, v) :: es
    else e :: insert k v es

def collect (es : List (String × α)) : List (String × α) :=
  es.foldl (fun acc e => insert e.1 e.2 acc) []

theorem get?_nil (k : String) : get? ([] : List (String × α)) k = none := rfl

theorem get?_cons (e : String × α) (es : List (String × α)) (k : String) :
    get? (e :: es) k = if e.1 = k then some e.2 else get? es k := by
  by_cases h : e.1 = k <;> simp [get?, h]

theorem fst_mem_insert {k : String} {v : α} {es : List (String × α)} {e : String × α}
    (h : e ∈ insert k v es) : e = (k, v) ∨ e ∈ es := by
  induction es with
  | nil => simpa [insert] using h
  | cons a es ih =>
    simp only [insert] at h
    split at h
    · simpa using h
    · split at h
      · rcases List.mem_cons.mp h with h | h
        · exact .inl h
        · exact .inr (List.mem_cons_of_mem _ h)
      · rcases List.mem_cons.mp h with h | h
        · exact .inr (h ▸ List.mem_cons_self)
        · exact (ih h).imp_right (List.mem_cons_of_mem _)

theorem sorted_insert {es : List (String × α)} (h : Sorted es) (k : String) (v : α) :
    Sorted (insert k v es) := by
  induction es with
  | nil => simp [insert, Sorted]
  | cons a es ih =>
    obtain ⟨ha, hes⟩ := List.pairwise_cons.mp h
    simp only [insert]
    split
    · rename_i hk
      refine List.pairwise_cons.mpr ⟨?_, h⟩
      intro b hb
      rcases List.mem_cons.mp hb with rfl | hb
      · exact hk
      · exact String.lt_trans hk (ha b hb)
    · split
      · rename_i hk
        exact List.pairwise_cons.mpr ⟨fun b hb => hk ▸ ha b hb, hes⟩
      · rename_i hk hk'
        refine List.pairwise_cons.mpr ⟨?_, ih hes⟩
        intro b hb
        rcases fst_mem_insert hb with rfl | hb
        · rcases name_trichotomy a.1 k with h1 | h1 | h1
          · exact h1
          · exact absurd h1.symm hk'
          · exact absurd h1 hk
        · exact ha b hb

theorem get?_insert (k : String) (v : α) (es : List (String × α)) (k' : String) :
    get? (insert k v es) k' = if k = k' then some v else get? es k' := by
  induction es with
  | nil => simp [insert, get?_cons, get?_nil]
  | cons a es ih =>
    simp only [insert]
    split
    · rw [get?_cons]
    · split
      · rename_i hk
        rw [get?_cons, get?_cons, hk]
        split <;> rfl
      · rename_i hk
        rw [get?_cons, ih, get?_cons]
        by_cases h1 : a.1 = k'
        · simp [h1, show ¬ k = k' from fun h2 => hk (h2.trans h1.symm)]
        · simp [h1]

theorem sorted_foldl_insert (es acc : List (String × α)) (h : Sorted acc) :
    Sorted (es.foldl (fun acc e => insert e.1 e.2 acc) acc) := by
  induction es generalizing acc with
  | nil => exact h
  | cons e es ih => exact ih _ (sorted_insert h _ _)

theorem sorted_collect (es : List (String × α)) : Sorted (collect es) :=
  sorted_foldl_insert es [] List.Pairwise.nil

theorem insert_of_lt {k : String} {v : α} {es : List (String × α)} (h : ∀ e ∈ es, e.1 < k) :
    insert k v es = es ++ [(k, v)] := by
  induction es with
  | nil => rfl
  | cons a es ih =>
    have ha := h a List.mem_cons_self
    have h1 : ¬ k < a.1 := fun h1 => String.lt_irrefl _ (String.lt_trans h1 ha)
    have h2 : ¬ k = a.1 := fun h2 => String.lt_irrefl _ (h2 ▸ ha)
    simp [insert, h1, h2, ih (fun e he => h e (List.mem_cons_of_mem _ he))]

theorem foldl_insert_of_sorted (es acc : List (String × α)) (h : Sorted (acc ++ es)) :
    es.foldl (fun acc e => insert e.1 e.2 acc) acc = acc ++ es := by
  induction es generalizing acc with
  | nil => simp
  | cons e es ih =>
    have ha : ∀ a ∈ acc, a.1 < e.1 := by
      intro a ha
      exact (List.pairwise_append.mp h).2.2 a ha e List.mem_cons_self
    rw [List.foldl_cons, insert_of_lt ha, ih _ (by simpa using h)]
    simp

theorem collect_of_sorted {es : List (String × α)} (h : Sorted es) : collect es = es := by
  simpa [collect] using foldl_insert_of_sorted es [] h

theorem get?_eq_some_of_mem {es : List (String × α)} (h : Sorted es) {k : String} {v : α}
    (hm : (k, v) ∈ es) : get? es k = some v := by
  induction es with
  | nil => simp at hm
  | cons a es ih =>
    obtain ⟨ha, hes⟩ := List.pairwise_cons.mp h
    rw [get?_cons]
    rcases List.mem_cons.mp hm with rfl | hm
    · simp
    · have h1 : a.1 ≠ k := fun h1 => String.lt_irrefl _ (h1 ▸ ha _ hm)
      simp [h1, ih hes hm]

theorem mem_of_get?_eq_some {es : List (String × α)} {k : String} {v : α}
    (h : get? es k = some v) : (k, v) ∈ es := by
  induction es with
  | nil => simp [get?_nil] at h
  | cons a es ih =>
    rw [get?_cons] at h
    split at h
    · rename_i hk
      cases h
      exact hk ▸ List.mem_cons_self
    · exact List.mem_cons_of_mem _ (ih h)

theorem get?_eq_none_of_lt {es : List (String × α)} {k : String} (h : ∀ e ∈ es, k < e.1) :
    get? es k = none := by
  cases hg : get? es k with
  | none => rfl
  | some v => exact absurd (h _ (mem_of_get?_eq_some hg)) (String.lt_irrefl _)

theorem eq_of_get?_eq {es fs : List (String × α)} (he : Sorted es) (hf : Sorted fs)
    (h : ∀ k, get? es k = get? fs k) : es = fs := by
  induction es generalizing fs with
  | nil =>
    cases fs with
    | nil => rfl
    | cons f fs =>
      have h1 := h f.1
      simp [get?_cons, get?_nil] at h1
  | cons e es ih =>
    obtain ⟨he1, he2⟩ := List.pairwise_cons.mp he
    cases fs with
    | nil =>
      have h1 := h e.1
      simp [get?_cons, get?_nil] at h1
    | cons f fs =>
      obtain ⟨hf1, hf2⟩ := List.pairwise_cons.mp hf
      -- The smaller of the first names would be missing in the other list.
      have hef : e.1 = f.1 := by
        rcases name_trichotomy e.1 f.1 with hl | hl | hl
        · have h1 := h e.1
          rw [get?_cons, if_pos rfl, get?_eq_none_of_lt] at h1
          · cases h1
          · intro g hg
            rcases List.mem_cons.mp hg with rfl | hg
            · exact hl
            · exact String.lt_trans hl (hf1 g hg)
        · exact hl
        · have h1 := h f.1
          rw [get?_cons f, if_pos rfl, get?_eq_none_of_lt] at h1
          · cases h1
          · intro g hg
            rcases List.mem_cons.mp hg with rfl | hg
            · exact hl
            · exact String.lt_trans hl (he1 g hg)
      have hv : e = f := by
        have h1 := h e.1
        rw [get?_cons, if_pos rfl, get?_cons, if_pos hef.symm] at h1
        exact Prod.ext hef (Option.some.inj h1)
      subst hv
      congr 1
      refine ih he2 hf2 ?_
      intro k
      have h1 := h k
      rw [get?_cons, get?_cons] at h1
      by_cases hk : e.1 = k
      · subst hk
        rw [get?_eq_none_of_lt he1, get?_eq_none_of_lt hf1]
      · simpa [hk] using h1

end Entries

structure Table (α : Type) where
  entries : List (String × α)
  sorted : Entries.Sorted entries

namespace Table

variable {α β : Type}

def empty : Table α := ⟨[], List.Pairwise.nil⟩

instance : EmptyCollection (Table α) := ⟨empty⟩

instance : Inhabited (Table α) := ⟨empty⟩

instance [DecidableEq α] : DecidableEq (Table α) := fun s t =>
  decidable_of_iff (s.entries = t.entries) (by cases s; cases t; simp)

instance [Repr α] : Repr (Table α) := ⟨fun t n => reprPrec t.entries n⟩

def get? (t : Table α) (k : String) : Option α := Entries.get? t.entries k

def contains (t : Table α) (k : String) : Bool := (t.get? k).isSome

def insert (t : Table α) (k : String) (v : α) : Table α :=
  ⟨Entries.insert k v t.entries, Entries.sorted_insert t.sorted k v⟩

def erase (t : Table α) (k : String) : Table α :=
  ⟨t.entries.filter (fun e => e.1 ≠ k), t.sorted.filter _⟩

def ofList (es : List (String × α)) : Table α :=
  ⟨Entries.collect es, Entries.sorted_collect es⟩

def keys (t : Table α) : List String := t.entries.map Prod.fst

def values (t : Table α) : List α := t.entries.map Prod.snd

def size (t : Table α) : Nat := t.entries.length

def isEmpty (t : Table α) : Bool := t.entries.isEmpty

def map (f : α → β) (t : Table α) : Table β :=
  ⟨t.entries.map (fun e => (e.1, f e.2)), by
    unfold Entries.Sorted
    rw [List.pairwise_map]
    exact t.sorted⟩

def filterMap (f : String → α → Option β) (t : Table α) : Table β :=
  ⟨t.entries.filterMap (fun e => (f e.1 e.2).map (fun b => (e.1, b))), by
    unfold Entries.Sorted
    rw [List.pairwise_filterMap]
    refine t.sorted.imp ?_
    intro a b hab c hc d hd
    obtain ⟨x, _, rfl⟩ := Option.map_eq_some_iff.mp hc
    obtain ⟨y, _, rfl⟩ := Option.map_eq_some_iff.mp hd
    exact hab⟩

theorem ext_entries {s t : Table α} (h : s.entries = t.entries) : s = t := by
  cases s; cases t; simpa using h

theorem ext_get? {s t : Table α} (h : ∀ k, s.get? k = t.get? k) : s = t :=
  ext_entries (Entries.eq_of_get?_eq s.sorted t.sorted h)

@[simp] theorem get?_empty (k : String) : (∅ : Table α).get? k = none := rfl

@[simp] theorem get?_insert (t : Table α) (k : String) (v : α) (k' : String) :
    (t.insert k v).get? k' = if k = k' then some v else t.get? k' :=
  Entries.get?_insert k v t.entries k'

theorem get?_erase (t : Table α) (k k' : String) :
    (t.erase k).get? k' = if k = k' then none else t.get? k' := by
  obtain ⟨es, hs⟩ := t
  simp only [get?, erase]
  clear hs
  induction es with
  | nil => simp [Entries.get?_nil]
  | cons e es ih =>
    rw [List.filter_cons]
    by_cases h : e.1 = k
    · subst h
      simp only [ne_eq, not_true, decide_false, Bool.false_eq_true, if_false]
      rw [ih, Entries.get?_cons]
      split <;> rfl
    · simp only [ne_eq, h, not_false_iff, decide_true, if_true]
      rw [Entries.get?_cons, ih, Entries.get?_cons]
      by_cases h1 : e.1 = k'
      · simp [h1, show ¬ k = k' from fun h2 => h (h1.trans h2.symm)]
      · simp [h1]

theorem get?_erase_of_ne (t : Table α) {k k' : String} (h : k ≠ k') :
    (t.erase k).get? k' = t.get? k' := by
  rw [get?_erase, if_neg h]

@[simp] theorem get?_map (f : α → β) (t : Table α) (k : String) :
    (t.map f).get? k = (t.get? k).map f := by
  obtain ⟨es, hs⟩ := t
  simp only [get?, map]
  clear hs
  induction es with
  | nil => simp [Entries.get?_nil]
  | cons e es ih =>
    rw [List.map_cons, Entries.get?_cons, Entries.get?_cons, ih]
    split <;> rfl

@[simp] theorem ofList_entries (t : Table α) : ofList t.entries = t :=
  ext_entries (Entries.collect_of_sorted t.sorted)

theorem mem_entries_iff (t : Table α) (k : String) (v : α) :
    (k, v) ∈ t.entries ↔ t.get? k = some v :=
  ⟨Entries.get?_eq_some_of_mem t.sorted, Entries.mem_of_get?_eq_some⟩

theorem mem_keys_iff (t : Table α) (k : String) : k ∈ t.keys ↔ ∃ v, t.get? k = some v := by
  simp [keys, ← mem_entries_iff]

theorem keys_map (f : α → β) (t : Table α) : (t.map f).keys = t.keys := by
  simp [keys, map]

theorem keys_eq_of_isSome {s : Table α} {t : Table β}
    (h : ∀ k, (s.get? k).isSome = (t.get? k).isSome) : s.keys = t.keys := by
  have hunit : s.map (fun _ => ()) = t.map (fun _ => ()) := by
    refine ext_get? fun k => ?_
    have hk := h k
    rw [get?_map, get?_map]
    cases hs : s.get? k <;> cases ht : t.get? k <;> simp [hs, ht] at hk ⊢
  rw [← keys_map (fun _ => ()) s, hunit, keys_map]

end Table

end NodeRun
