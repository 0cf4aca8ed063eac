import NodeRun.Proofs.Coercion.Scalar

namespace NodeRun

theorem coerceRaw_filter (identifier : String) (type : FieldType) (raw : Option String) :
    coerceRaw identifier type (raw.filter (fun s => s ≠ "")) = coerceRaw identifier type raw := by
  simp [coerceRaw, Option.filter_filter]

namespace Field

open Scalar

variable {fs : List Field} {f : Field} {inputs inputs' : Table String} {t t' : Settings}
  {e : Error} {i : String}

def given (inputs : Table String) (f : Field) : Option String :=
  (inputs.get? f.identifier).filter (fun s => s ≠ "")

def reading (inputs : Table String) (f : Field) : Except Error (Option FieldValue) :=
  coerceRaw f.identifier f.type (inputs.get? f.identifier)

def Unsaid (inputs : Table String) (f : Field) : Prop :=
  ∃ s, f.given inputs = some s ∧ ∀ v, ¬ Says s f.type v

def FirstUnsaid (inputs : Table String) (fs : List Field) (f : Field) : Prop :=
  ∃ before after, fs = before ++ f :: after ∧ (∀ g ∈ before, ¬ g.Unsaid inputs) ∧ f.Unsaid inputs

def LastNamed (fs : List Field) (f : Field) : Prop :=
  ∃ before after, fs = before ++ f :: after ∧ ∀ g ∈ after, g.identifier ≠ f.identifier

theorem ne_empty_of_given {s : String} (h : f.given inputs = some s) : s ≠ "" := by
  simpa using (Option.filter_eq_some_iff.mp h).2

theorem reading_eq (inputs : Table String) (f : Field) :
    f.reading inputs = coerceRaw f.identifier f.type (f.given inputs) :=
  (coerceRaw_filter _ _ _).symm

theorem reading_of_absent (h : f.given inputs = none) : f.reading inputs = .ok none := by
  rw [reading_eq, h]
  rfl

theorem reading_eq_ok {s : String} {v : FieldValue} (h : f.given inputs = some s)
    (hv : Says s f.type v) : f.reading inputs = .ok (some v) := by
  rw [reading_eq, h]
  exact coerceRaw_eq_ok (ne_empty_of_given h) hv

theorem reading_of_unsaid {s : String} (h : f.given inputs = some s)
    (hv : ∀ v, ¬ Says s f.type v) :
    ∃ reason, f.reading inputs = .error (.parse f.identifier f.type s reason) := by
  rw [reading_eq, h]
  exact coerceRaw_of_unsaid (ne_empty_of_given h) hv

theorem reading_of_firstUnsaid {s : String} (h : FirstUnsaid inputs fs f)
    (hs : f.given inputs = some s) :
    ∃ reason, f.reading inputs = .error (.parse f.identifier f.type s reason) := by
  obtain ⟨before, after, -, -, s', hs', hv⟩ := h
  cases hs.symm.trans hs'
  exact reading_of_unsaid hs hv

theorem unsaid_iff : f.Unsaid inputs ↔ ∃ e, f.reading inputs = .error e := by
  constructor
  · rintro ⟨s, hs, hv⟩
    obtain ⟨reason, hr⟩ := reading_of_unsaid hs hv
    exact ⟨_, hr⟩
  · rintro ⟨e, he⟩
    cases hs : f.given inputs with
    | none =>
      rw [reading_of_absent hs] at he
      cases he
    | some s =>
      refine ⟨s, hs, fun v hv => ?_⟩
      rw [reading_eq_ok hs hv] at he
      cases he

theorem says_of_reading {s : String} {v : Option FieldValue} (h : f.given inputs = some s)
    (hr : f.reading inputs = .ok v) : ∃ x, v = some x ∧ Says s f.type x := by
  by_cases hv : ∃ x, Says s f.type x
  · obtain ⟨x, hx⟩ := hv
    rw [reading_eq_ok h hx] at hr
    cases hr
    exact ⟨x, rfl, hx⟩
  · obtain ⟨reason, hr'⟩ := reading_of_unsaid h (not_exists.mp hv)
    rw [hr'] at hr
    cases hr

theorem autoparseOnto_cons (inputs : Table String) (t : Settings) (f : Field) (fs : List Field) :
    autoparseOnto inputs t (f :: fs) =
      f.reading inputs >>= fun v => autoparseOnto inputs (put t f.identifier v) fs := rfl

theorem get?_put (t : Settings) (name : String) (v : Option FieldValue) (i : String) :
    (put t name v).get? i =
      if name = i then (v.map FieldValue.toJson) <|> t.get? i else t.get? i := by
  cases v with
  | none => simp [put]
  | some x => simp [put]

theorem autoparseOnto_eq_error_iff :
    autoparseOnto inputs t fs = .error e ↔
      ∃ f, FirstUnsaid inputs fs f ∧ f.reading inputs = .error e := by
  induction fs generalizing t with
  | nil => simp [autoparseOnto, FirstUnsaid]
  | cons g fs ih =>
    rw [autoparseOnto_cons]
    cases hg : g.reading inputs with
    | error e' =>
      have hunsaid : g.Unsaid inputs := unsaid_iff.mpr ⟨e', hg⟩
      constructor
      · rintro ⟨⟩
        exact ⟨g, ⟨[], fs, rfl, by simp, hunsaid⟩, hg⟩
      · rintro ⟨f, ⟨before, after, hfs, hbefore, -⟩, hf⟩
        cases before with
        | nil =>
          cases hfs
          exact congrArg _ (Except.error.inj (hg.symm.trans hf))
        | cons b before =>
          cases hfs
          exact absurd hunsaid (hbefore g List.mem_cons_self)
    | ok v =>
      -- The first field that says nothing is then among the later ones.
      have hsaid : ¬ g.Unsaid inputs := by
        intro h
        obtain ⟨e', he⟩ := unsaid_iff.mp h
        cases hg.symm.trans he
      refine Iff.trans ih ?_
      constructor
      · rintro ⟨f, ⟨before, after, rfl, hbefore, hf⟩, he⟩
        exact ⟨f, ⟨g :: before, after, rfl, List.forall_mem_cons.mpr ⟨hsaid, hbefore⟩, hf⟩, he⟩
      · rintro ⟨f, ⟨before, after, hfs, hbefore, hf⟩, he⟩
        cases before with
        | nil =>
          cases hfs
          exact absurd hf hsaid
        | cons b before =>
          cases hfs
          exact ⟨f, ⟨before, after, rfl, (List.forall_mem_cons.mp hbefore).2, hf⟩, he⟩

theorem not_unsaid_of_autoparseOnto (h : autoparseOnto inputs t fs = .ok t') :
    ∀ f ∈ fs, ¬ f.Unsaid inputs := by
  induction fs generalizing t with
  | nil => simp
  | cons g fs ih =>
    obtain ⟨v, hv, hrest⟩ := Decode.bind_eq_ok.mp h
    refine List.forall_mem_cons.mpr ⟨fun hg => ?_, ih hrest⟩
    obtain ⟨e, he⟩ := unsaid_iff.mp hg
    cases hv.symm.trans he

theorem get?_autoparseOnto_of_absent (h : autoparseOnto inputs t fs = .ok t')
    (hi : ∀ f ∈ fs, f.identifier = i → f.given inputs = none) : t'.get? i = t.get? i := by
  induction fs generalizing t with
  | nil =>
    cases h
    rfl
  | cons g fs ih =>
    obtain ⟨v, hv, hrest⟩ := Decode.bind_eq_ok.mp h
    rw [ih hrest (fun f hf => hi f (List.mem_cons_of_mem _ hf)), get?_put]
    split
    · rename_i hname
      have hnone := reading_of_absent (hi g List.mem_cons_self hname)
      cases hv.symm.trans hnone
      rfl
    · rfl

theorem get?_autoparseOnto_last {s : String} (h : autoparseOnto inputs t fs = .ok t')
    (hf : LastNamed fs f) (hs : f.given inputs = some s) :
    ∃ v, Says s f.type v ∧ t'.get? f.identifier = some v.toJson := by
  obtain ⟨before, after, rfl, hafter⟩ := hf
  -- What the fields before the last one put is replaced, so nothing is asked of `t`.
  induction before generalizing t with
  | nil =>
    obtain ⟨v, hv, hrest⟩ := Decode.bind_eq_ok.mp h
    obtain ⟨x, rfl, hx⟩ := says_of_reading hs hv
    refine ⟨x, hx, ?_⟩
    rw [get?_autoparseOnto_of_absent hrest fun g hg hname => absurd hname (hafter g hg), get?_put]
    simp
  | cons b before ih =>
    obtain ⟨v, -, hrest⟩ := Decode.bind_eq_ok.mp h
    exact ih hrest

theorem exists_lastNamed (h : ∃ f ∈ fs, f.identifier = i) :
    ∃ f, LastNamed fs f ∧ f.identifier = i := by
  induction fs with
  | nil => simp at h
  | cons g fs ih =>
    by_cases hfs : ∃ f ∈ fs, f.identifier = i
    · obtain ⟨f, ⟨before, after, rfl, hafter⟩, hi⟩ := ih hfs
      exact ⟨f, ⟨g :: before, after, rfl, hafter⟩, hi⟩
    · obtain ⟨f, hf, rfl⟩ := h
      rcases List.mem_cons.mp hf with rfl | hf
      · exact ⟨f, ⟨[], fs, rfl, fun x hx hxi => hfs ⟨x, hx, hxi⟩⟩, rfl⟩
      · exact absurd ⟨f, hf, rfl⟩ hfs

theorem mem_keys_autoparse (h : autoparse fs inputs = .ok t) :
    i ∈ t.keys ↔ ∃ f ∈ fs, f.identifier = i ∧ f.given inputs ≠ none := by
  rw [Table.mem_keys_iff]
  constructor
  · rintro ⟨v, hv⟩
    by_contra hnone
    have habsent : t.get? i = (∅ : Settings).get? i := by
      refine get?_autoparseOnto_of_absent h fun f hf hi => ?_
      by_contra hgiven
      exact hnone ⟨f, hf, hi, hgiven⟩
    rw [hv] at habsent
    cases habsent
  · rintro ⟨f, hf, rfl, hgiven⟩
    obtain ⟨g, hg, hname⟩ := exists_lastNamed ⟨f, hf, rfl⟩
    obtain ⟨s, hs⟩ := Option.ne_none_iff_exists'.mp hgiven
    have hgs : g.given inputs = some s := by
      rw [← hs]
      simp only [given, hname]
    obtain ⟨v, -, hv⟩ := get?_autoparseOnto_last h hg hgs
    exact ⟨_, hname ▸ hv⟩

theorem autoparseOnto_congr
    (h : ∀ f ∈ fs, inputs'.get? f.identifier = inputs.get? f.identifier) :
    autoparseOnto inputs' t fs = autoparseOnto inputs t fs := by
  induction fs generalizing t with
  | nil => rfl
  | cons f fs ih =>
    obtain ⟨hf, hfs⟩ := List.forall_mem_cons.mp h
    rw [autoparseOnto_cons, autoparseOnto_cons, reading, reading, hf]
    simp only [ih hfs]

inductive Typed (raw : String) : FieldType → Json → Prop
  | int (n : Int64) : Typed raw .int (.int n.toInt)
  | float {x : Real64} (h : x.isFinite = true) : Typed raw .float (.real x)
  | bool (b : Bool) : Typed raw .bool (.bool b)
  | text {type : FieldType} (h : type.isScalar = false) : Typed raw type (.str raw)

theorem says_typed {raw : String} {type : FieldType} {v : FieldValue} (h : Says raw type v) :
    Typed raw type v.toJson := by
  cases h with
  | int ht hn => exact .int _
  | float ht hx hf =>
    rw [FieldValue.toJson, Json.ofReal, if_pos hf]
    exact .float hf
  | bool ht hb => exact .bool _
  | text ht => exact .text ht

theorem Typed.ne_null {raw : String} {type : FieldType} {j : Json} (h : Typed raw type j) :
    j ≠ .null := by
  cases h <;> exact Json.noConfusion

theorem autoparse_exact (fs : List Field) (inputs : Table String) :
    ((∃ e, autoparse fs inputs = .error e) ↔ ∃ f ∈ fs, f.Unsaid inputs) ∧
    (∀ (f : Field) (s : String), FirstUnsaid inputs fs f → f.given inputs = some s →
      ∃ reason,
        coerceRaw f.identifier f.type (some s) = .error (.parse f.identifier f.type s reason) ∧
        autoparse fs inputs = .error (.parse f.identifier f.type s reason)) ∧
    (∀ t, autoparse fs inputs = .ok t →
      (∀ i, i ∈ t.keys ↔ ∃ f ∈ fs, f.identifier = i ∧ f.given inputs ≠ none) ∧
      ∀ (f : Field) (s : String), LastNamed fs f → f.given inputs = some s →
        ∃ v, coerceRaw f.identifier f.type (some s) = .ok (some v) ∧
          t.get? f.identifier = some v.toJson ∧ Typed s f.type v.toJson ∧ v.toJson ≠ .null) ∧
    ∀ inputs' : Table String, (∀ f ∈ fs, inputs'.get? f.identifier = inputs.get? f.identifier) →
      autoparse fs inputs' = autoparse fs inputs := by
  refine ⟨?_, fun f s hf hs => ?_, fun t ht => ⟨fun i => mem_keys_autoparse ht, ?_⟩,
    fun inputs' h => autoparseOnto_congr h⟩
  · constructor
    · rintro ⟨e, he⟩
      obtain ⟨f, ⟨before, after, rfl, -, hf⟩, -⟩ := autoparseOnto_eq_error_iff.mp he
      exact ⟨f, by simp, hf⟩
    · rintro ⟨f, hf, hunsaid⟩
      cases ht : autoparse fs inputs with
      | error e => exact ⟨e, rfl⟩
      | ok t => exact absurd hunsaid (not_unsaid_of_autoparseOnto ht f hf)
  · obtain ⟨reason, hr⟩ := reading_of_firstUnsaid hf hs
    refine ⟨reason, ?_, autoparseOnto_eq_error_iff.mpr ⟨f, hf, hr⟩⟩
    rwa [reading_eq, hs] at hr
  · intro f s hf hs
    obtain ⟨v, hv, hget⟩ := get?_autoparseOnto_last ht hf hs
    exact ⟨v, coerceRaw_eq_ok (ne_empty_of_given hs) hv, hget, says_typed hv,
      (says_typed hv).ne_null⟩

def redeclared : List Field := [.named "n" .str, .named "n" .int, .named "m" .bool]

def redeclaredTexts (n : String) : Table String := .ofList [("m", ""), ("n", n), ("x", "y")]

theorem autoparse_exact_redeclared :
    (LastNamed redeclared (.named "n" .int) ∧
      ∃ t v, autoparse redeclared (redeclaredTexts " 7") = .ok t ∧ "m" ∉ t.keys ∧
        coerceRaw "n" .int (some " 7") = .ok (some v) ∧ t.get? "n" = some v.toJson) ∧
    FirstUnsaid (redeclaredTexts "x") redeclared (.named "n" .int) ∧
      ∃ reason,
        autoparse redeclared (redeclaredTexts "x") = .error (.parse "n" .int "x" reason) := by
  have hlast : LastNamed redeclared (.named "n" .int) :=
    ⟨[.named "n" .str], [.named "m" .bool], rfl, by simp [named]⟩
  have hfirst : FirstUnsaid (redeclaredTexts "x") redeclared (.named "n" .int) := by
    refine ⟨[.named "n" .str], [.named "m" .bool], rfl, ?_, "x", rfl, fun v hv => ?_⟩
    · intro g hg hunsaid
      obtain ⟨s, -, hv⟩ := hunsaid
      rw [List.mem_singleton.mp hg] at hv
      exact hv _ (.text rfl)
    · have hread : read .int "x" = .error .invalidDigit := rfl
      cases hread.symm.trans (read_eq_ok_iff.mpr hv)
  refine ⟨⟨hlast, Table.empty.insert "n" (.int 7), ?_⟩, hfirst, ?_⟩
  · have ht : autoparse redeclared (redeclaredTexts " 7") =
        .ok (Table.empty.insert "n" (.int 7)) := rfl
    obtain ⟨-, hvalues⟩ := (autoparse_exact redeclared (redeclaredTexts " 7")).2.2.1 _ ht
    obtain ⟨v, hv, hget, -⟩ := hvalues _ " 7" hlast rfl
    exact ⟨v, ht, by decide, hv, hget⟩
  · obtain ⟨reason, -, h⟩ :=
      (autoparse_exact redeclared (redeclaredTexts "x")).2.1 _ "x" hfirst rfl
    exact ⟨reason, h⟩

def keep (t : Table String) (f : Field) : Table String :=
  match f.rawDefault with
  | some s => t.insert f.identifier s
  | none => t

theorem parseAll_eq (fs : List Field) : parseAll fs = fs.foldl keep ∅ := rfl

theorem get?_keep (t : Table String) (f : Field) (i : String) :
    (keep t f).get? i = if f.identifier = i then f.rawDefault <|> t.get? i else t.get? i := by
  unfold keep
  cases f.rawDefault <;> simp

theorem get?_foldl_keep_of_absent (h : ∀ f ∈ fs, f.identifier ≠ i) (t : Table String) :
    (fs.foldl keep t).get? i = t.get? i := by
  induction fs generalizing t with
  | nil => rfl
  | cons g fs ih =>
    obtain ⟨hg, hfs⟩ := List.forall_mem_cons.mp h
    rw [List.foldl_cons, ih hfs, get?_keep, if_neg hg]

theorem get?_foldl_keep (h : (fs.map identifier).Nodup) (hf : f ∈ fs) {t : Table String}
    (ht : t.get? f.identifier = none) : (fs.foldl keep t).get? f.identifier = f.rawDefault := by
  induction fs generalizing t with
  | nil => cases hf
  | cons g fs ih =>
    obtain ⟨hg, hfs⟩ := List.nodup_cons.mp h
    rw [List.foldl_cons]
    -- The later fields have other names, so none of them replaces what `f` put there.
    rcases List.mem_cons.mp hf with rfl | hf
    · have hother : ∀ x ∈ fs, x.identifier ≠ f.identifier :=
        fun x hx hname => hg (List.mem_map.mpr ⟨x, hx, hname⟩)
      rw [get?_foldl_keep_of_absent hother, get?_keep, if_pos rfl, ht]
      cases f.rawDefault <;> rfl
    · have hne : g.identifier ≠ f.identifier :=
        fun hname => hg (List.mem_map.mpr ⟨f, hf, hname.symm⟩)
      exact ih hfs hf (by rw [get?_keep, if_neg hne, ht])

theorem get?_parseAll (h : (fs.map identifier).Nodup) (hf : f ∈ fs) :
    (parseAll fs).get? f.identifier = f.rawDefault :=
  get?_foldl_keep h hf (Table.get?_empty _)

theorem given_parseAll (h : (fs.map identifier).Nodup) (hf : f ∈ fs) :
    f.given (parseAll fs) = f.rawDefault := by
  rw [given, get?_parseAll h hf, rawDefault, Option.filter_filter]
  simp

theorem isSome_get?_parseAll (h : (fs.map identifier).Nodup) :
    ((parseAll fs).get? i).isSome = true ↔
      ∃ f ∈ fs, f.identifier = i ∧ f.rawDefault ≠ none := by
  constructor
  · intro hi
    by_cases hname : ∃ f ∈ fs, f.identifier = i
    · obtain ⟨f, hf, rfl⟩ := hname
      rw [get?_parseAll h hf] at hi
      exact ⟨f, hf, rfl, Option.isSome_iff_ne_none.mp hi⟩
    · have habsent := get?_foldl_keep_of_absent (i := i)
        (fun f hf hfi => hname ⟨f, hf, hfi⟩) ∅
      rw [parseAll_eq, habsent] at hi
      cases hi
  · rintro ⟨f, hf, rfl, hdefault⟩
    rw [get?_parseAll h hf]
    exact Option.isSome_iff_ne_none.mpr hdefault

theorem coerce_eq (f : Field) : f.coerce = coerceRaw f.identifier f.type f.rawDefault :=
  (coerceRaw_filter _ _ _).symm

theorem coerceOnto_eq_autoparseOnto
    (h : ∀ f ∈ fs, inputs.get? f.identifier = f.rawDefault) (t : Settings) :
    coerceOnto t fs = autoparseOnto inputs t fs := by
  induction fs generalizing t with
  | nil => rfl
  | cons f fs ih =>
    obtain ⟨hf, hfs⟩ := List.forall_mem_cons.mp h
    have hread : f.coerce = f.reading inputs := by rw [coerce_eq, reading, hf]
    rw [autoparseOnto_cons, coerceOnto, hread]
    simp only [ih hfs]

theorem autoparse_parseAll (fs : List Field) (h : (fs.map identifier).Nodup) :
    autoparse fs (parseAll fs) = coerceAll fs ∧
    (∀ t, coerceAll fs = .ok t → t.keys = (parseAll fs).keys) ∧
    ∀ e, coerceAll fs = .error e →
      ∃ f s reason, FirstUnsaid (parseAll fs) fs f ∧ f.rawDefault = some s ∧
        f.coerce = .error e ∧ e = .parse f.identifier f.type s reason := by
  have hsame : autoparse fs (parseAll fs) = coerceAll fs := by
    rw [coerceAll, repeated?_eq_none_iff.mpr h]
    exact (coerceOnto_eq_autoparseOnto (fun f hf => get?_parseAll h hf) ∅).symm
  refine ⟨hsame, fun t ht => ?_, fun e he => ?_⟩
  · rw [← hsame] at ht
    refine Table.keys_eq_of_isSome fun i => ?_
    rw [Bool.eq_iff_iff, isSome_get?_parseAll h, Option.isSome_iff_exists,
      ← Table.mem_keys_iff, mem_keys_autoparse ht]
    constructor
    · rintro ⟨f, hf, hi, hgiven⟩
      exact ⟨f, hf, hi, given_parseAll h hf ▸ hgiven⟩
    · rintro ⟨f, hf, hi, hdefault⟩
      exact ⟨f, hf, hi, (given_parseAll h hf).symm ▸ hdefault⟩
  · rw [← hsame] at he
    obtain ⟨f, hf, hread⟩ := autoparseOnto_eq_error_iff.mp he
    have hmem : f ∈ fs := by
      obtain ⟨before, after, rfl, -⟩ := hf
      simp
    obtain ⟨before, after, hfs, hbefore, s, hs, hv⟩ := hf
    obtain ⟨reason, hr⟩ := reading_of_unsaid hs hv
    have hdefault : f.rawDefault = some s := (given_parseAll h hmem).symm.trans hs
    refine ⟨f, s, reason, ⟨before, after, hfs, hbefore, s, hs, hv⟩, hdefault, ?_, ?_⟩
    · rw [coerce_eq, ← given_parseAll h hmem, ← reading_eq, hread]
    · exact Except.error.inj (hread.symm.trans hr)

theorem autoparse_parseAll_refused :
    let fs : List Field :=
      [{ named "k" .int with defaultValue := some "5" },
       { named "on" .bool with defaultValue := some "maybe" }, named "unset" .str]
    (fs.map identifier).Nodup ∧ autoparse fs (parseAll fs) = coerceAll fs ∧
      ∃ f s reason, f ∈ fs ∧ f.rawDefault = some s ∧
        coerceAll fs = .error (.parse f.identifier f.type s reason) := by
  intro fs
  have hnodup : (fs.map identifier).Nodup := by decide
  have he : coerceAll fs = .error (.parse "on" .bool "maybe" .notBoolean) := rfl
  obtain ⟨hsame, -, herror⟩ := autoparse_parseAll fs hnodup
  obtain ⟨f, s, reason, ⟨before, after, hfs, -⟩, hs, -, hreason⟩ := herror _ he
  exact ⟨hnodup, hsame, f, s, reason, hfs ▸ by simp, hs, hreason ▸ he⟩

end Field

end NodeRun
