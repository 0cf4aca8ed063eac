import NodeRun.Proofs.Wire.Value

namespace NodeRun.Decode

section Except

variable {ε ε' α β : Type}

theorem bind_eq_ok {x : Except ε α} {g : α → Except ε β} {b : β} :
    (x >>= g) = .ok b ↔ ∃ a, x = .ok a ∧ g a = .ok b := by
  cases x <;> simp [bind, Except.bind]

theorem map_eq_ok {x : Except ε α} {g : α → β} {b : β} :
    x.map g = .ok b ↔ ∃ a, x = .ok a ∧ g a = b := by
  cases x <;> simp [Except.map]

theorem mapError_eq_ok {x : Except ε α} {g : ε → ε'} {a : α} :
    x.mapError g = .ok a ↔ x = .ok a := by
  cases x with
  | ok b =>
    exact ⟨fun h => congrArg Except.ok (Except.ok.inj h),
      fun h => congrArg Except.ok (Except.ok.inj h)⟩
  | error e => exact ⟨nofun, nofun⟩

end Except

variable {α : Type}

def Yields (f : Decoder α) (P : α → Prop) : Prop :=
  ∀ o j x, Json.Proper j → f o (Doc.ofJson j) = .ok x → P x

/-- The decoder reads the value, its members put in order, as `x`. -/
def Takes (f : Decoder α) (v : Json) (x : α) : Prop :=
  ∀ o, f o (Doc.ofJson v.normalize) = .ok x

/-- All that is read is canonical, and what is canonical is written as a value of a program that is
read as the same again. -/
structure Faithful (f : Decoder α) (enc : α → Json) (C : α → Prop) : Prop where
  yields : Yields f C
  takes : ∀ x, C x → Takes f (enc x) x
  writes : ∀ x, C x → (enc x).normalize.Proper

/-- A decoder that makes nothing of null, so that null can stand for no value at all. -/
structure Strict (f : Decoder α) (enc : α → Json) (C : α → Prop) : Prop
    extends Faithful f enc C where
  refuses : ∀ o x, f o .null ≠ .ok x

variable {f : Decoder α} {enc : α → Json} {C P Q : α → Prop}

theorem Yields.imp (h : Yields f P) (himp : ∀ x, P x → Q x) : Yields f Q :=
  fun o j x hj hx => himp x (h o j x hj hx)

theorem Faithful.ofJson_normalize (h : Faithful f enc C) {x : α} (hx : C x) :
    ofJson f (enc x).normalize = .ok x :=
  h.takes x hx .value

theorem Strict.normalize_ne_null (h : Strict f enc C) {x : α} (hx : C x) :
    (enc x).normalize ≠ .null := by
  intro hnull
  have htakes := h.takes x hx .value
  rw [hnull] at htakes
  exact h.refuses .value x htakes

theorem strict_string : Strict string .str (fun _ => True) where
  yields := fun _ _ _ _ _ => trivial
  takes := fun _ _ _ => rfl
  writes := fun _ _ => by simp only [Json.normalize, Json.Proper]
  refuses := nofun

theorem strict_bool : Strict bool .bool (fun _ => True) where
  yields := fun _ _ _ _ _ => trivial
  takes := fun _ _ _ => rfl
  writes := fun _ _ => by simp only [Json.normalize, Json.Proper]
  refuses := nofun

theorem strict_real : Strict real Json.ofReal (fun x => x.isFinite = true) where
  yields := by
    intro o j x hj hx
    cases j with
    | int n =>
      cases hx
      exact Json.IsWord.isFinite (by simpa only [Json.Proper] using hj)
    | real y =>
      cases hx
      simpa only [Json.Proper] using hj
    | _ => exact nomatch hx
  takes := by
    intro x hx o
    rw [Json.ofReal, if_pos hx]
    rfl
  writes := by
    intro x hx
    rw [Json.ofReal, if_pos hx]
    simpa only [Json.normalize, Json.Proper] using hx
  refuses := nofun

theorem intBetween_int {low high n : Int} (type : String) (o : Origin) (hl : low ≤ n)
    (hu : n < high) : intBetween low high type o (.int n) = .ok n :=
  if_pos ⟨hl, hu⟩

theorem strict_int64 : Strict int64 (fun n => .int n.toInt) (fun _ => True) where
  yields := fun _ _ _ _ _ => trivial
  takes := by
    intro n _ o
    have hl := n.le_toInt
    have hu := n.toInt_lt
    show (intBetween _ _ "i64" o (.int n.toInt)).map Int64.ofInt = .ok n
    rw [intBetween_int "i64" o (by omega) (by omega), Except.map, Int64.ofInt_toInt]
  writes := by
    intro n _
    have hl := n.le_toInt
    have hu := n.toInt_lt
    simp only [Json.normalize, Json.Proper, Json.IsWord]
    omega
  refuses := nofun

theorem strict_uint32 : Strict uint32 (fun n => .int n.toNat) (fun _ => True) where
  yields := fun _ _ _ _ _ => trivial
  takes := by
    intro n _ o
    have hn := n.toNat_lt
    show (intBetween _ _ "u32" o (.int n.toNat)).map (fun n => UInt32.ofNat n.toNat) = .ok n
    rw [intBetween_int "u32" o (by omega) (by omega), Except.map, Int.toNat_natCast,
      UInt32.ofNat_toNat]
  writes := by
    intro n _
    have hn := n.toNat_lt
    simp only [Json.normalize, Json.Proper, Json.IsWord]
    omega
  refuses := nofun

theorem strict_uint64 (type : String) :
    Strict (uint64 type) (fun n => .int n.toNat) (fun _ => True) where
  yields := fun _ _ _ _ _ => trivial
  takes := by
    intro n _ o
    have hn := n.toNat_lt
    show (intBetween _ _ type o (.int n.toNat)).map (fun n => UInt64.ofNat n.toNat) = .ok n
    rw [intBetween_int type o (by omega) (by omega), Except.map, Int.toNat_natCast,
      UInt64.ofNat_toNat]
  writes := by
    intro n _
    have hn := n.toNat_lt
    simp only [Json.normalize, Json.Proper, Json.IsWord]
    omega
  refuses := nofun

theorem any_ofJson (o : Origin) (j : Json) : any o (Doc.ofJson j) = .ok j.normalize := by
  rw [any, Doc.fault?_ofJson, Doc.value_ofJson, orFault]

theorem faithful_any : Faithful any id Json.Proper where
  yields := by
    intro o j x hj hx
    rw [any_ofJson, hj.normalize_eq] at hx
    exact Except.ok.inj hx ▸ hj
  takes := by
    intro j hj o
    rw [id, hj.normalize_eq, any_ofJson, hj.normalize_eq]
  writes := fun _ hj => by rwa [id, hj.normalize_eq]

theorem strict_variant {names : List String} {pick : String → Option α} {name : α → String}
    (h : ∀ x, pick (name x) = some x) :
    Strict (variant names pick) (fun x => .str (name x)) (fun _ => True) where
  yields := fun _ _ _ _ _ => trivial
  takes := by
    intro x _ o
    show variant names pick o (.str (name x)) = .ok x
    simp only [variant, variantNamed, h]
  writes := fun _ _ => by simp only [Json.normalize, Json.Proper]
  refuses := by
    intro o x
    cases o <;> nofun

section Option

theorem option_of_ne_null (o : Origin) {j : Json} (h : j ≠ .null) :
    option f o (Doc.ofJson j) = (f o (Doc.ofJson j)).map some := by
  cases j <;> first | exact absurd rfl h | rfl

theorem Takes.option {v : Json} {x : α} (h : Takes f v x) (hv : v.normalize ≠ .null) :
    Takes (Decode.option f) v (some x) := by
  intro o
  rw [option_of_ne_null o hv, h o]
  rfl

theorem Yields.option (h : Yields f P) : Yields (Decode.option f) (fun x => ∀ a ∈ x, P a) := by
  intro o j x hj hx
  by_cases hnull : j = .null
  · subst hnull
    cases hx
    nofun
  · rw [option_of_ne_null o hnull] at hx
    obtain ⟨a, ha, rfl⟩ := map_eq_ok.mp hx
    intro b hb
    exact Option.mem_some.mp hb ▸ h o j a hj ha

theorem yields_option_any :
    Yields (Decode.option any) (fun x => ∀ j ∈ x, j.Proper ∧ j ≠ .null) := by
  intro o j x hj hx
  by_cases hnull : j = .null
  · subst hnull
    cases hx
    nofun
  · rw [option_of_ne_null o hnull, any_ofJson, hj.normalize_eq] at hx
    cases hx
    intro k hk
    cases hk
    exact ⟨hj, hnull⟩

end Option

section List

theorem items_ok {o : Origin} {js : List Json} {xs : List α} (h : Yields f P)
    (hj : ∀ j ∈ js, j.Proper) (hx : items f o (Doc.ofItems js) = .ok xs) : ∀ x ∈ xs, P x := by
  induction js generalizing xs with
  | nil =>
    cases hx
    nofun
  | cons j js ih =>
    obtain ⟨y, hy, hrest⟩ := bind_eq_ok.mp hx
    obtain ⟨ys, hys, hxs⟩ := bind_eq_ok.mp hrest
    cases hxs
    obtain ⟨hhead, htail⟩ := List.forall_mem_cons.mp hj
    exact List.forall_mem_cons.mpr ⟨h o j y hhead hy, ih htail hys⟩

theorem items_ofItems_map (o : Origin) {xs : List α} (h : ∀ x ∈ xs, Takes f (enc x) x) :
    items f o (Doc.ofItems (xs.map (fun x => (enc x).normalize))) = .ok xs := by
  induction xs with
  | nil => rfl
  | cons x xs ih =>
    obtain ⟨hhead, htail⟩ := List.forall_mem_cons.mp h
    simp only [List.map_cons, Doc.ofItems, items, hhead o, ih htail]
    rfl

theorem Faithful.list (h : Faithful f enc C) :
    Strict (Decode.list f) (Json.list enc) (fun xs => ∀ x ∈ xs, C x) where
  yields := by
    intro o j xs hj hx
    cases j with
    | arr js =>
      obtain ⟨ys, hys, hxs⟩ := bind_eq_ok.mp hx
      cases hxs
      exact items_ok h.yields (Json.proper_arr.mp hj) hys
    | _ => exact nomatch hx
  takes := by
    intro xs hxs o
    have hmap := items_ofItems_map o (fun x hx => h.takes x (hxs x hx))
    rw [Json.list, Json.normalize, Json.normalizeItems_eq_map, List.map_map]
    show (items f o (Doc.ofItems (xs.map (fun x => (enc x).normalize))) >>= _) = _
    rw [hmap]
    rfl
  writes := by
    intro xs hxs
    rw [Json.list, Json.normalize, Json.normalizeItems_eq_map, List.map_map, Json.proper_arr]
    exact List.forall_mem_map.mpr fun x hx => h.writes x (hxs x hx)
  refuses := nofun

theorem Strict.list_all (h : Strict f enc (fun _ => True)) :
    Strict (Decode.list f) (Json.list enc) (fun _ => True) where
  yields := fun _ _ _ _ _ => trivial
  takes := fun xs _ => h.list.takes xs fun _ _ => trivial
  writes := fun xs _ => h.list.writes xs fun _ _ => trivial
  refuses := nofun

theorem strict_anyList : Strict (Decode.list any) .arr (fun js => ∀ j ∈ js, j.Proper) := by
  have h := faithful_any.list
  rwa [show Json.list id = Json.arr from funext fun js => congrArg Json.arr js.map_id] at h

end List

section Table

theorem members_ok {o : Origin} {ms : List (String × Json)} {es : List (String × α)}
    (h : Yields f P) (hj : ∀ e ∈ ms, e.2.Proper)
    (hx : members f o (Doc.ofMembers ms) = .ok es) : ∀ e ∈ es, P e.2 := by
  induction ms generalizing es with
  | nil =>
    cases hx
    nofun
  | cons m ms ih =>
    obtain ⟨_, hk, hvalue⟩ := bind_eq_ok.mp hx
    obtain ⟨x, hy, hrest⟩ := bind_eq_ok.mp hvalue
    obtain ⟨ys, hys, hes⟩ := bind_eq_ok.mp hrest
    cases hes
    obtain ⟨hhead, htail⟩ := List.forall_mem_cons.mp hj
    exact List.forall_mem_cons.mpr ⟨h o m.2 x hhead hy, ih htail hys⟩

theorem members_ofMembers_map (o : Origin) {es : List (String × α)}
    (h : ∀ e ∈ es, Takes f (enc e.2) e.2) :
    members f o (Doc.ofMembers (es.map (fun e => (e.1, (enc e.2).normalize)))) = .ok es := by
  induction es with
  | nil => rfl
  | cons e es ih =>
    obtain ⟨hhead, htail⟩ := List.forall_mem_cons.mp h
    simp only [List.map_cons, Doc.ofMembers, members, orFault, hhead o, ih htail]
    rfl

theorem normalize_ofTable (t : Table Json) :
    (Json.ofTable t).normalize = .obj (t.entries.map (fun e => (e.1, e.2.normalize))) := by
  have hsorted : Entries.Sorted (t.entries.map (fun e => (e.1, e.2.normalize))) :=
    (t.map Json.normalize).sorted
  rw [Json.ofTable, Json.normalize, Json.normalizeMembers_eq_map,
    Entries.collect_of_sorted hsorted]

theorem Faithful.table (h : Faithful f enc C) :
    Strict (Decode.table f) (fun t => Json.ofTable (t.map enc))
      (fun t => ∀ e ∈ t.entries, C e.2) where
  yields := by
    intro o j t hj hx
    cases j with
    | obj ms =>
      obtain ⟨es, hes, ht⟩ := bind_eq_ok.mp hx
      cases ht
      exact fun e he => members_ok h.yields (Json.proper_obj.mp hj).2 hes e (Entries.mem_collect he)
    | _ => exact nomatch hx
  takes := by
    intro t ht o
    have hmap := members_ofMembers_map o (fun e he => h.takes e.2 (ht e he))
    rw [normalize_ofTable, Table.map, List.map_map]
    show (members f o (Doc.ofMembers (t.entries.map (fun e => (e.1, (enc e.2).normalize)))) >>= _) =
      _
    rw [hmap]
    show Except.ok (Table.ofList t.entries) = _
    rw [Table.ofList_entries]
  writes := by
    intro t ht
    rw [normalize_ofTable, Json.proper_obj]
    refine ⟨((t.map enc).map Json.normalize).sorted, ?_⟩
    rw [Table.map, List.map_map]
    exact List.forall_mem_map.mpr fun e he => h.writes e.2 (ht e he)
  refuses := nofun

theorem strict_strings : Strict (table string) Json.strs (fun _ => True) where
  yields := fun _ _ _ _ _ => trivial
  takes := fun t _ => strict_string.toFaithful.table.takes t (fun _ _ => trivial)
  writes := fun t _ => strict_string.toFaithful.table.writes t (fun _ _ => trivial)
  refuses := nofun

theorem strict_values : Strict (table any) Json.ofTable (fun t => ∀ e ∈ t.entries, e.2.Proper) := by
  have h := faithful_any.table
  have hid : (fun t : Table Json => Json.ofTable (t.map id)) = Json.ofTable := by
    funext t
    rw [Json.ofTable, Table.map]
    simp [Json.ofTable]
  rwa [hid] at h

end Table

end NodeRun.Decode
