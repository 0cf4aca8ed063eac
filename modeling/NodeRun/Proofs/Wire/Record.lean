import NodeRun.Proofs.Wire.Decoder

namespace NodeRun

namespace Slot

def Holds : Slot → Option Json → Prop
  | .absent, none => True
  | .here _ d, some j => d = Doc.ofJson j
  | _, _ => False

theorem Holds.eq_absent {s : Slot} (h : s.Holds none) : s = .absent := by
  cases s with
  | absent => rfl
  | _ => exact h.elim

theorem Holds.eq_here {s : Slot} {j : Json} (h : s.Holds (some j)) :
    ∃ p, s = .here p (Doc.ofJson j) := by
  cases s with
  | here p d => exact ⟨p, congrArg (here p) h⟩
  | _ => exact h.elim

end Slot

namespace Reading

def Proper (r : Reading) : Prop :=
  ∀ i name p d, r.slot i name = .here p d → ∃ j : Json, j.Proper ∧ d = Doc.ofJson j

def Shows (r : Reading) (fs : List (String × Option Json)) : Prop :=
  ∀ e ∈ fs, ∀ i, (r.slot i e.1).Holds (e.2.map Json.normalize)

theorem shows_append {r : Reading} {fs gs : List (String × Option Json)} :
    r.Shows (fs ++ gs) ↔ r.Shows fs ∧ r.Shows gs :=
  List.forall_mem_append

end Reading

namespace Fields

open Decode

variable {α β ρ σ : Type}

/-- Fields that read the part `part` of a record from the members `shown` of it. -/
structure Lawful (C : ρ → Prop) (fs : Fields α) (part : ρ → α)
    (shown : ρ → List (String × Option Json)) (Q : α → Prop) : Prop where
  names : ∀ x, (shown x).map Prod.fst = fs.names
  yields : ∀ r i a, Reading.Proper r → fs.read r i = .ok a → Q a
  reads : ∀ x, C x → ∀ r i, Reading.Shows r (shown x) → fs.read r i = .ok (part x)
  writes : ∀ x, C x → ∀ e ∈ shown x, ∀ v ∈ e.2, v.normalize.Proper

namespace Lawful

variable {C : ρ → Prop} {P : α → Prop} {Q : β → Prop}

theorem none {a : α} (ha : P a) : Lawful C (.none a) (fun _ => a) (fun _ => []) P where
  names := fun _ => rfl
  yields := fun _ _ _ _ h => Except.ok.inj h ▸ ha
  reads := fun _ _ _ _ _ => rfl
  writes := fun _ _ _ he => nomatch he

theorem map {fs : Fields α} {part : ρ → α} {shown : ρ → List (String × Option Json)}
    (h : Lawful C fs part shown P) (g : α → β) (hg : ∀ a, P a → Q (g a)) :
    Lawful C (fs.map g) (fun x => g (part x)) shown Q where
  names := h.names
  yields := by
    intro r i b hr hb
    obtain ⟨a, ha, rfl⟩ := map_eq_ok.mp hb
    exact hg a (h.yields r i a hr ha)
  reads := by
    intro x hx r i hs
    show (fs.read r i).map g = _
    rw [h.reads x hx r i hs]
    rfl
  writes := h.writes

theorem both_eq_ok {f : Placed (α → β)} {x : Placed α} {b : β} :
    Placed.both f x = .ok b ↔ ∃ g a, f = .ok g ∧ x = .ok a ∧ g a = b := by
  cases f <;> cases x <;> simp [Placed.both]

theorem and {fs : Fields (α → β)} {gs : Fields α} {part : ρ → α → β} {part' : ρ → α}
    {shown shown' : ρ → List (String × Option Json)}
    (hf : Lawful C fs part shown (fun g => ∀ a, P a → Q (g a))) (hg : Lawful C gs part' shown' P) :
    Lawful C (fs.and gs) (fun x => part x (part' x)) (fun x => shown x ++ shown' x) Q where
  names := by
    intro x
    rw [List.map_append, hf.names, hg.names]
    rfl
  yields := by
    intro r i b hr hb
    obtain ⟨g, a, hgr, har, rfl⟩ := both_eq_ok.mp hb
    exact hf.yields r i g hr hgr a (hg.yields r _ a hr har)
  reads := by
    intro x hx r i hs
    obtain ⟨hs, hs'⟩ := Reading.shows_append.mp hs
    exact both_eq_ok.mpr ⟨_, _, hf.reads x hx r i hs, hg.reads x hx r _ hs', rfl⟩
  writes := fun x hx => List.forall_mem_append.mpr ⟨hf.writes x hx, hg.writes x hx⟩

theorem comap {D : σ → Prop} {fs : Fields α} {part : ρ → α}
    {shown : ρ → List (String × Option Json)} (h : Lawful C fs part shown P) (g : σ → ρ)
    (hg : ∀ y, D y → C (g y)) :
    Lawful D fs (fun y => part (g y)) (fun y => shown (g y)) P where
  names := fun y => h.names (g y)
  yields := h.yields
  reads := fun y hy => h.reads (g y) (hg y hy)
  writes := fun y hy => h.writes (g y) (hg y hy)

variable {name : String} {f : Decoder α} {enc : α → Json}

theorem field {default : Option α} {part : ρ → α} {value : ρ → Option Json} (hy : Yields f P)
    (hd : ∀ a ∈ default, P a)
    (ht : ∀ x, C x → ∀ v ∈ value x, Takes f v (part x))
    (hn : ∀ x, C x → value x = Option.none → default = some (part x))
    (hw : ∀ x, C x → ∀ v ∈ value x, v.normalize.Proper) :
    Lawful C (.field default name f) part (fun x => [(name, value x)]) P where
  names := fun _ => rfl
  yields := by
    intro r i a hr ha
    simp only [Fields.field] at ha
    split at ha
    · split at ha
      · cases ha
        exact hd _ rfl
      · cases ha
    · rename_i p d hslot
      obtain ⟨j, hj, rfl⟩ := hr i name p d hslot
      exact hy _ j a hj (mapError_eq_ok.mp ha)
    · split at ha <;> cases ha
  reads := by
    intro x hx r i hs
    have hheld := hs (name, value x) List.mem_cons_self i
    simp only [Fields.field]
    cases hv : value x with
    | none =>
      rw [hv] at hheld
      rw [hheld.eq_absent, hn x hx hv]
    | some v =>
      rw [hv] at hheld
      obtain ⟨p, hslot⟩ := hheld.eq_here
      rw [hslot]
      exact mapError_eq_ok.mpr (ht x hx v hv r.origin)
  writes := fun x hx => List.forall_mem_cons.mpr ⟨hw x hx, nofun⟩

theorem required_of {part : ρ → α} {value : ρ → Json} (hy : Yields f P)
    (ht : ∀ x, C x → Takes f (value x) (part x))
    (hw : ∀ x, C x → (value x).normalize.Proper) :
    Lawful C (.required name f) part (fun x => [(name, some (value x))]) P :=
  field hy nofun (fun x hx _ hv => Option.some.inj hv ▸ ht x hx) nofun
    (fun x hx _ hv => Option.some.inj hv ▸ hw x hx)

theorem required (h : Strict f enc P) (part : ρ → α) (hc : ∀ x, C x → P (part x)) :
    Lawful C (.required name f) part (fun x => [(name, some (enc (part x)))]) P :=
  required_of h.yields (fun x hx => h.takes (part x) (hc x hx))
    (fun x hx => h.writes (part x) (hc x hx))

theorem withDefault {a : α} (h : Strict f enc P) (part : ρ → α) (ha : P a)
    (hc : ∀ x, C x → P (part x)) :
    Lawful C (.withDefault a name f) part (fun x => [(name, some (enc (part x)))]) P :=
  field h.yields (fun _ hb => Option.some.inj hb ▸ ha)
    (fun x hx _ hv => Option.some.inj hv ▸ h.takes (part x) (hc x hx)) nofun
    (fun x hx _ hv => Option.some.inj hv ▸ h.writes (part x) (hc x hx))

theorem optional (h : Strict f enc P) (part : ρ → Option α)
    (hc : ∀ x, C x → ∀ a ∈ part x, P a) :
    Lawful C (.optional name f) part (fun x => [(name, (part x).map enc)])
      (fun o => ∀ a ∈ o, P a) := by
  refine field h.yields.option ?_ ?_ ?_ ?_
  · intro o ho
    cases ho
    nofun
  · intro x hx v hv
    obtain ⟨a, ha, rfl⟩ := Option.map_eq_some_iff.mp hv
    rw [ha]
    exact (h.takes a (hc x hx a ha)).option (h.normalize_ne_null (hc x hx a ha))
  · intro x _ hv
    rw [Option.map_eq_none_iff.mp hv]
  · intro x hx v hv
    obtain ⟨a, ha, rfl⟩ := Option.map_eq_some_iff.mp hv
    exact h.writes a (hc x hx a ha)

section All

variable (h : Strict f enc (fun _ => True))

include h

theorem required_all (part : ρ → α) :
    Lawful C (.required name f) part (fun x => [(name, some (enc (part x)))]) (fun _ => True) :=
  required h part fun _ _ => trivial

theorem withDefault_all {a : α} (part : ρ → α) :
    Lawful C (.withDefault a name f) part (fun x => [(name, some (enc (part x)))])
      (fun _ => True) :=
  withDefault h part trivial fun _ _ => trivial

theorem optional_all (part : ρ → Option α) :
    Lawful C (.optional name f) part (fun x => [(name, (part x).map enc)])
      (fun o => ∀ a ∈ o, True) :=
  optional h part fun _ _ _ _ => trivial

end All

theorem free (part : ρ → Option Json) (hc : ∀ x, C x → ∀ j ∈ part x, j.Proper ∧ j ≠ .null) :
    Lawful C (.optional name any) part (fun x => [(name, part x)])
      (fun o => ∀ j ∈ o, j.Proper ∧ j ≠ .null) := by
  refine field yields_option_any ?_ ?_ ?_ ?_
  · intro o ho
    cases ho
    nofun
  · intro x hx j hj
    obtain ⟨hproper, hnull⟩ := hc x hx j hj
    rw [hj]
    exact (faithful_any.takes j hproper).option fun h => hnull (hproper.normalize_eq ▸ h)
  · intro x _ hv
    rw [hv]
  · intro x hx j hj
    exact faithful_any.writes j (hc x hx j hj).1

end Lawful

end Fields

namespace Decode

variable {α β ρ : Type}

theorem places_ofMembers (name : String) (ms : List (String × Json)) :
    places name (Doc.ofMembers ms) =
      ms.zipIdx.filterMap (fun e =>
        if e.1.1 = name then some (e.2, Doc.ofJson e.1.2) else none) := by
  rw [places, Doc.ofMembers_eq_map, List.zipIdx_map, List.filterMap_map]
  congr 1
  funext e
  simp

theorem zipIdx_filterMap_of_sorted (name : String) {ms : List (String × Json)}
    (h : Entries.Sorted ms) (k : Nat) :
    ∃ p, (ms.zipIdx k).filterMap (fun e =>
        if e.1.1 = name then some (e.2, Doc.ofJson e.1.2) else none) =
      ((Entries.get? ms name).map (fun j => (p, Doc.ofJson j))).toList := by
  induction ms generalizing k with
  | nil => exact ⟨0, rfl⟩
  | cons e ms ih =>
    obtain ⟨hlt, hms⟩ := List.pairwise_cons.mp h
    obtain ⟨p, hp⟩ := ih hms (k + 1)
    rw [Entries.get?_cons, List.zipIdx_cons, List.filterMap_cons, hp]
    by_cases hname : e.1 = name
    · rw [← hname, Entries.get?_eq_none_of_lt hlt]
      exact ⟨k, by simp⟩
    · exact ⟨p, by simp [hname]⟩

theorem places_of_sorted (name : String) {ms : List (String × Json)} (h : Entries.Sorted ms) :
    ∃ p, places name (Doc.ofMembers ms) =
      ((Entries.get? ms name).map (fun j => (p, Doc.ofJson j))).toList := by
  rw [places_ofMembers]
  exact zipIdx_filterMap_of_sorted name h 0

theorem slotOf_eq_here {ps : List (Nat × Doc)} {p : Nat} {d : Doc} (h : slotOf ps = .here p d) :
    ps = [(p, d)] := by
  match ps, h with
  | [(_, _)], h => cases h; rfl

theorem readingOfMembers_proper (o : Origin) {ms : List (String × Json)}
    (h : ∀ e ∈ ms, e.2.Proper) : (readingOfMembers o (Doc.ofMembers ms)).Proper := by
  intro i name p d hslot
  have hmem : (p, d) ∈ places name (Doc.ofMembers ms) := by
    rw [slotOf_eq_here hslot]
    exact List.mem_cons_self
  rw [places_ofMembers] at hmem
  obtain ⟨⟨e, q⟩, hzip, hsome⟩ := List.mem_filterMap.mp hmem
  have he := h e (List.mem_of_getElem? (List.mem_zipIdx_iff_getElem?.mp hzip))
  split at hsome
  · exact ⟨e.2, he, (Prod.mk.inj (Option.some.inj hsome)).2.symm⟩
  · cases hsome

theorem readingOfItems_proper (o : Origin) (expected : String) {js : List Json}
    (h : ∀ j ∈ js, j.Proper) : (readingOfItems o expected (Doc.ofItems js)).Proper := by
  intro i name p d hslot
  simp only [readingOfItems] at hslot
  split at hslot
  · rename_i d' hget
    cases hslot
    have hmem := List.mem_of_getElem? hget
    rw [Doc.ofItems_eq_map] at hmem
    obtain ⟨j, hj, rfl⟩ := List.mem_map.mp hmem
    exact ⟨j, h j hj, rfl⟩
  · cases hslot

theorem readingOfMembers_shows (o : Origin) {ms : List (String × Json)}
    {fs : List (String × Option Json)} (h : Entries.Sorted ms)
    (hfs : ∀ e ∈ fs, Entries.get? ms e.1 = e.2.map Json.normalize) :
    (readingOfMembers o (Doc.ofMembers ms)).Shows fs := by
  intro e he i
  obtain ⟨p, hp⟩ := places_of_sorted e.1 h
  show (slotOf (places e.1 (Doc.ofMembers ms))).Holds _
  rw [hp, hfs e he]
  cases e.2 <;> trivial

theorem frameFault_ofMembers {skip : Doc → Option Fault} (h : ∀ j, skip (Doc.ofJson j) = none)
    (names : List String) (ms : List (String × Json)) :
    frameFault names skip (Doc.ofMembers ms) none = none := by
  have hnone : ∀ e ∈ (Doc.ofMembers ms).zipIdx,
      ((e.1.1.fault <|> if e.1.1.name ∈ names then none else skip e.1.2).map
        (fun f => (e.2, DecodeError.malformed f.flaw))) = none := by
    intro e he
    have hms := List.mem_of_getElem? (List.mem_zipIdx_iff_getElem?.mp he)
    rw [Doc.ofMembers_eq_map] at hms
    obtain ⟨m, _, hm⟩ := List.mem_map.mp hms
    rw [← hm, h]
    simp
  rw [frameFault, List.findSome?_eq_none_iff.mpr hnone]
  rfl

theorem firstOf_eq_ok {frame : Option (Nat × DecodeError)} {x : Placed α} {a : α} :
    firstOf frame x = .ok a ↔ frame = none ∧ x = .ok a := by
  cases frame <;> cases x <;> simp [firstOf]

theorem recordOfMembers_ofMembers (o : Origin) (fs : Fields α) (ms : List (String × Json)) :
    recordOfMembers o fs (Doc.ofMembers ms) none =
      (fs.read (readingOfMembers o (Doc.ofMembers ms)) 0).mapError Prod.snd := by
  rw [recordOfMembers, frameFault_ofMembers Doc.skipFault?_ofJson]
  cases fs.read (readingOfMembers o (Doc.ofMembers ms)) 0 <;> rfl

theorem recordOfItems_ofItems (o : Origin) (expected : String) (fs : Fields α) (ds : List Doc) :
    recordOfItems o expected fs ds none =
      ((fs.read (readingOfItems o (expected ++ " with " ++ elementsText fs.names.length) ds)
        0).mapError Prod.snd >>= fun x =>
          if fs.names.length < ds.length then .error (surplus o ds.length fs.names.length)
          else .ok x) := by
  simp only [recordOfItems]
  split
  · rename_i hshort
    cases fs.read (readingOfItems o _ ds) 0 with
    | ok x => exact (if_neg (Nat.lt_asymm hshort)).symm
    | error e => rfl
  · cases fs.read (readingOfItems o _ ds) 0 with
    | ok x => rfl
    | error e => rfl

end Decode

namespace Fields.Lawful

open Decode

variable {α ρ : Type} {C : ρ → Prop} {Q : α → Prop} {fs : Fields α} {part : ρ → α}
  {shown : ρ → List (String × Option Json)}

theorem yields_record (h : Lawful C fs part shown Q) (expected : String) :
    Yields (record expected fs) Q := by
  intro o j x hj hx
  cases j with
  | obj ms =>
    have hread := mapError_eq_ok.mp ((recordOfMembers_ofMembers o fs ms).symm.trans hx)
    exact h.yields _ 0 x (readingOfMembers_proper o (Json.proper_obj.mp hj).2) hread
  | arr js =>
    have hitems := (recordOfItems_ofItems o expected fs (Doc.ofItems js)).symm.trans hx
    obtain ⟨y, hread, hy⟩ := bind_eq_ok.mp hitems
    split at hy
    · cases hy
    · cases hy
      exact h.yields _ 0 x (readingOfItems_proper o _ (Json.proper_arr.mp hj))
        (mapError_eq_ok.mp hread)
  | _ => exact nomatch hx

theorem record_shows (h : Lawful C fs part shown Q) (expected : String) {x : ρ} (hx : C x)
    {j : Json} (hj : j.Shows (shown x)) (o : Origin) :
    record expected fs o (Doc.ofJson j) = .ok (part x) := by
  obtain ⟨ms, rfl, hsorted, hms⟩ := hj
  exact (recordOfMembers_ofMembers o fs ms).trans
    (mapError_eq_ok.mpr (h.reads x hx _ 0 (readingOfMembers_shows o hsorted hms)))

theorem takes_record (h : Lawful C fs part shown Q) (expected : String) (hn : fs.names.Nodup)
    {x : ρ} (hx : C x) : Takes (record expected fs) (Json.record (shown x)) (part x) :=
  h.record_shows expected hx (Json.shows_record (h.names x ▸ hn))

end Fields.Lawful

namespace Decode

variable {α β : Type} {C : α → Prop} {enc : α → Json}

theorem Strict.record_of {ρ : Type} {fs : Fields α} {P : ρ → Prop} {part : ρ → α}
    {shown : ρ → List (String × Option Json)} {expected : String}
    (h : fs.Lawful P part shown C) (hn : fs.names.Nodup)
    (hpart : ∀ a, C a → ∃ x, P x ∧ part x = a ∧ enc a = Json.record (shown x)) :
    Strict (Decode.record expected fs) enc C where
  yields := h.yields_record expected
  takes := by
    intro a ha
    obtain ⟨x, hx, rfl, henc⟩ := hpart a ha
    exact henc ▸ h.takes_record expected hn hx
  writes := by
    intro a ha
    obtain ⟨x, hx, _, henc⟩ := hpart a ha
    exact henc ▸ Json.proper_record (h.writes x hx)
  refuses := nofun

theorem Strict.record {fs : Fields α} {shown : α → List (String × Option Json)}
    {expected : String} (h : fs.Lawful C id shown C) (hn : fs.names.Nodup) :
    Strict (Decode.record expected fs) (fun x => Json.record (shown x)) C :=
  .record_of h hn fun x hx => ⟨x, hx, rfl, rfl⟩

theorem Strict.flattened {own : Fields (β → α)} {shared : Fields β} {part : α → β → α}
    {part' : α → β} {shown shown' : α → List (String × Option Json)} {P : β → Prop}
    {expected : String} (ho : own.Lawful C part shown (fun g => ∀ b, P b → C (g b)))
    (hs : shared.Lawful C part' shown' P)
    (hn : (shared.names ++ own.names).Nodup) (hpart : ∀ x, part x (part' x) = x)
    (henc : ∀ x, enc x = Json.record (shown' x ++ shown x)) :
    Strict (fun o d => (Decode.flattened expected own shared o d).map (fun p => p.1 p.2)) enc
      C where
  yields := by
    intro o j x hj hx
    obtain ⟨⟨g, b⟩, hgb, rfl⟩ := map_eq_ok.mp hx
    cases j with
    | obj ms =>
      obtain ⟨g, hg, hrest⟩ := bind_eq_ok.mp hgb
      obtain ⟨b, hb, hpair⟩ := bind_eq_ok.mp hrest
      cases hpair
      have hproper := (Json.proper_obj.mp hj).2
      rw [Doc.ofMembers_filter (fun n => decide (n ∉ own.names)),
        recordOfMembers_ofMembers] at hb
      exact ho.yields _ 0 g (readingOfMembers_proper o hproper) (firstOf_eq_ok.mp hg).2 b
        (hs.yields _ 0 b (readingOfMembers_proper .buffered fun e he =>
          hproper e (List.mem_filter.mp he).1) (mapError_eq_ok.mp hb))
    | _ => exact nomatch hgb
  takes := by
    intro x hx o
    have hnames : ((shown' x ++ shown x).map Prod.fst).Nodup := by
      rwa [List.map_append, hs.names, ho.names]
    obtain ⟨ms, hms, hsorted, hget⟩ := Json.shows_record hnames
    obtain ⟨hshared, hown⟩ := List.forall_mem_append.mp hget
    have hg : firstOf (frameFault own.names Doc.fault? (Doc.ofMembers ms) none)
        (own.read (readingOfMembers o (Doc.ofMembers ms)) 0) = .ok (part x) :=
      firstOf_eq_ok.mpr ⟨frameFault_ofMembers Doc.fault?_ofJson _ _,
        ho.reads x hx _ 0 (readingOfMembers_shows o hsorted hown)⟩
    -- What is set aside has the shared members, since no own field bears one of their names.
    have hb : recordOfMembers .buffered shared
        ((Doc.ofMembers ms).filter (fun e => decide (e.1.name ∉ own.names))) none =
          .ok (part' x) := by
      have hother : ∀ e ∈ shown' x, decide (e.1 ∉ own.names) = true := by
        intro e he
        have hname : e.1 ∈ shared.names := hs.names x ▸ List.mem_map_of_mem he
        exact decide_eq_true fun hmem => (List.nodup_append.mp hn).2.2 _ hname _ hmem rfl
      have hrest := Json.shows_filter (p := fun n => decide (n ∉ own.names)) hsorted hshared hother
      rw [Doc.ofMembers_filter (fun n => decide (n ∉ own.names))]
      exact hs.record_shows expected hx hrest .buffered
    rw [henc, hms]
    show (firstOf _ _ >>= _).map _ = _
    rw [hg]
    show (recordOfMembers _ _ _ _ >>= _).map _ = _
    rw [hb]
    exact congrArg Except.ok (hpart x)
  writes := fun x hx => henc x ▸
    Json.proper_record (List.forall_mem_append.mpr ⟨hs.writes x hx, ho.writes x hx⟩)
  refuses := nofun

section Tagged

variable {names : List String} {pick : String → Option α} {expected : String}

theorem tagged_yields {o : Origin} {j : Json} {x : α} {d : Doc} (hj : j.Proper)
    (h : tagged expected names pick o (Doc.ofJson j) = .ok (x, d)) :
    ∃ k : Json, k.Proper ∧ d = Doc.ofJson k := by
  cases j with
  | obj ms =>
    obtain ⟨hsorted, hproper⟩ := Json.proper_obj.mp hj
    obtain ⟨y, _, hrest⟩ := bind_eq_ok.mp h
    cases hrest
    rw [Doc.ofMembers_filter (fun n => decide (n ≠ "type"))]
    exact ⟨.obj _, Json.proper_obj.mpr ⟨hsorted.filter _, fun e he =>
      hproper e (List.mem_filter.mp he).1⟩, rfl⟩
  | arr js =>
    cases js with
    | nil => exact nomatch h
    | cons j js =>
      obtain ⟨y, _, hrest⟩ := bind_eq_ok.mp h
      obtain ⟨_, _, hpair⟩ := bind_eq_ok.mp hrest
      cases hpair
      exact ⟨.arr js, Json.proper_arr.mpr (List.forall_mem_cons.mp (Json.proper_arr.mp hj)).2, rfl⟩
  | _ => exact nomatch h

theorem tagged_shows (names : List String) (expected : String) (o : Origin) {j : Json}
    {s : String} {x : α} {fs : List (String × Option Json)}
    (hj : j.Shows (("type", some (.str s)) :: fs)) (hpick : pick s = some x)
    (hfs : "type" ∉ fs.map Prod.fst) :
    ∃ k : Json, k.Shows fs ∧
      tagged expected names pick o (Doc.ofJson j) = .ok (x, Doc.ofJson k) := by
  obtain ⟨ms, rfl, hsorted, hget⟩ := hj
  obtain ⟨htype, hrest⟩ := List.forall_mem_cons.mp hget
  have htag : Takes (tag names pick) (.str s) x := by
    intro o
    show variantNamed names pick s = .ok x
    rw [variantNamed, hpick]
  have hlaw : (Fields.required "type" (tag names pick)).Lawful (fun _ : Unit => True) (fun _ => x)
      (fun _ => [("type", some (.str s))]) (fun _ => True) :=
    .required_of (fun _ _ _ _ _ => trivial) (fun _ _ => htag)
      (fun _ _ => strict_string.writes s trivial)
  have hread := hlaw.reads () trivial _ 0
    (readingOfMembers_shows o hsorted (List.forall_mem_singleton.mpr htype))
  have hfirst := firstOf_eq_ok.mpr
    ⟨frameFault_ofMembers Doc.fault?_ofJson ["type"] ms, hread⟩
  have hother : ∀ e ∈ fs, decide (e.1 ≠ "type") = true :=
    fun e he => decide_eq_true fun hname => hfs (hname ▸ List.mem_map_of_mem he)
  refine ⟨_, Json.shows_filter (p := fun n => decide (n ≠ "type")) hsorted hrest hother, ?_⟩
  show (firstOf (frameFault ["type"] _ _ _) _ >>= _) = _
  rw [hfirst]
  show Except.ok
    (x, Doc.obj ((Doc.ofMembers ms).filter fun e => decide (e.1.name ≠ "type")) none) = _
  rw [Doc.ofMembers_filter (fun n => decide (n ≠ "type"))]
  rfl

theorem Strict.union {β : Type} {pick : String → Option β} {name : β → String}
    {content : β → Decoder α} {tagOf : α → β} {payload : α → Option Json}
    (hpick : ∀ t, pick (name t) = some t) (hy : ∀ t, Yields (content t) C)
    (hs : ∀ x, C x → ∀ o j, Json.Shows j [("payload", payload x)] →
      content (tagOf x) o (Doc.ofJson j) = .ok x)
    (hw : ∀ x, C x → ∀ v ∈ payload x, v.normalize.Proper) :
    Strict (fun o d => tagged expected names pick o d >>= fun p => content p.1 .buffered p.2)
      (fun x => Json.record [("type", some (.str (name (tagOf x)))), ("payload", payload x)])
      C where
  yields := by
    intro o j x hj hx
    obtain ⟨⟨t, d⟩, htag, hcontent⟩ := bind_eq_ok.mp hx
    obtain ⟨k, hk, rfl⟩ := tagged_yields hj htag
    exact hy t .buffered k x hk hcontent
  takes := by
    intro x hx o
    have hshows : Json.Shows (Json.normalize (Json.record
          [("type", some (.str (name (tagOf x)))), ("payload", payload x)]))
        [("type", some (.str (name (tagOf x)))), ("payload", payload x)] :=
      Json.shows_record (show ["type", "payload"].Nodup by decide)
    obtain ⟨k, hk, htag⟩ := tagged_shows names expected o hshows (hpick (tagOf x))
      (show "type" ∉ ["payload"] by decide)
    show (tagged expected names pick o _ >>= _) = _
    rw [htag]
    exact hs x hx .buffered k hk
  writes := fun x hx => Json.proper_record <| List.forall_mem_cons.mpr
    ⟨fun _ hv => Option.some.inj hv ▸ strict_string.writes _ trivial,
      List.forall_mem_cons.mpr ⟨hw x hx, nofun⟩⟩
  refuses := nofun

end Tagged

end Decode

end NodeRun
