import NodeRun.Json.Printer
import NodeRun.Proofs.Coercion.Fields
import NodeRun.Proofs.Wire.Workflow

namespace NodeRun

structure ScalarFormat (α : Type) where
  bool : Bool → α
  int : Int64 → α
  float : Real64 → α
  str : String → α

namespace ScalarFormat

def values : ScalarFormat Json where
  bool := .bool
  int n := .int n.toInt
  float := Json.ofReal
  str := .str

def texts : ScalarFormat (List Char) where
  bool b := if b then "true".toList else "false".toList
  int n := intText n.toInt
  float x := if x.isFinite then (x.render RealStyle.json).toList else "null".toList
  str := Json.stringText

end ScalarFormat

namespace FieldValue

open Scalar

variable {identifier : String} {raw : Option String} {type : FieldType} {v : FieldValue}

def write {α : Type} (s : ScalarFormat α) : FieldValue → α
  | bool b => s.bool b
  | int n => s.int n
  | float x => s.float x
  | str t => s.str t

def kinds : List (Decoder FieldValue) :=
  [fun o d => (Decode.bool o d).map bool,
   fun o d => (Decode.int64 o d).map int,
   fun o d => (Decode.real o d).map float,
   fun o d => (Decode.string o d).map str]

def firstFit (o : Origin) (d : Doc) : Option FieldValue :=
  kinds.findSome? (fun f => (f o d).toOption)

theorem write_values (v : FieldValue) : v.write .values = v.toJson := by
  cases v <;> rfl

theorem write_texts (v : FieldValue) : v.write .texts = v.toJson.text := by
  cases v with
  | bool b => cases b <;> rfl
  | int n => rfl
  | float x =>
    simp only [write, ScalarFormat.texts, toJson, Json.ofReal]
    split <;> rfl
  | str s => rfl

theorem int64_int (o : Origin) (n : Int) :
    (Decode.int64 o (.int n)).toOption =
      if -0x8000000000000000 ≤ n ∧ n < 0x8000000000000000 then some (Int64.ofInt n) else none := by
  simp only [Decode.int64, Decode.intBetween]
  split <;> rfl

theorem firstFit_ofJson (o : Origin) (j : Json) : firstFit o (Doc.ofJson j) = ofJson? j := by
  cases j with
  | int n =>
    -- No truth value is an integer, and a number takes what the integers leave.
    have hfit : firstFit o (.int n) =
        ((Decode.int64 o (.int n)).toOption.map int <|> some (float (Real64.ofInt n))) := by
      simp only [firstFit, kinds, List.findSome?]
      cases Decode.int64 o (.int n) <;> rfl
    rw [Doc.ofJson, hfit, int64_int, ofJson?]
    split <;> rfl
  | _ => rfl

theorem toJson_normalize (v : FieldValue) : v.toJson.normalize = v.toJson := by
  cases v with
  | float x =>
    rw [toJson, Json.ofReal]
    split <;> rfl
  | _ => rfl

theorem toJson_eq_null_iff : v.toJson = .null ↔ ¬ v.Canonical := by
  cases v with
  | float x =>
    by_cases h : x.isFinite = true
    · simp [toJson, Json.ofReal, Canonical, h]
    · simp [toJson, Json.ofReal, Canonical, h]
  | _ => simp [toJson, Canonical]

theorem decode_toJson (h : v.Canonical) (o : Origin) : decode o (Doc.ofJson v.toJson) = .ok v := by
  have htakes := strict_decode.takes v h o
  rwa [toJson_normalize] at htakes

theorem decode_toJson_iff (v : FieldValue) (o : Origin) :
    decode o (Doc.ofJson v.toJson) = .ok v ↔ v.toJson ≠ .null := by
  constructor
  · intro h hnull
    rw [hnull] at h
    exact strict_decode.refuses o v h
  · intro h
    exact decode_toJson (not_not.mp fun hv => h (toJson_eq_null_iff.mpr hv)) o

theorem says_of_coerceRaw (h : coerceRaw identifier type raw = .ok (some v)) :
    ∃ s, raw = some s ∧ Says s type v := by
  cases raw with
  | none => cases h
  | some s =>
    by_cases hs : s = ""
    · subst hs
      cases h
    · exact ⟨s, rfl, (coerceRaw_eq_ok_iff hs).mp h⟩

theorem canonical_of_says {s : String} (h : Says s type v) : v.Canonical := by
  cases h with
  | float ht hx hf => exact hf
  | _ => trivial

theorem coerced_kept (h : coerceRaw identifier type raw = .ok (some v)) :
    (v.write .values = v.toJson ∧ v.write .texts = v.toJson.text) ∧
    v.toJson ≠ .null ∧
    (∀ o, firstFit o (Doc.ofJson v.toJson) = some v ∧ decode o (Doc.ofJson v.toJson) = .ok v) ∧
    (∃ s, raw = some s ∧ Says s type v ∧ Field.Typed s type v.toJson) ∧
    ∀ (u : FieldValue) (o : Origin),
      decode o (Doc.ofJson u.toJson) = .ok u ↔ u.toJson ≠ .null := by
  obtain ⟨s, hraw, hsays⟩ := says_of_coerceRaw h
  have hcanonical := canonical_of_says hsays
  have hfit (o : Origin) : firstFit o (Doc.ofJson v.toJson) = some v := by
    rw [firstFit_ofJson, ← toJson_normalize, ofJson?_toJson hcanonical]
  exact ⟨⟨v.write_values, v.write_texts⟩, (Field.says_typed hsays).ne_null,
    fun o => ⟨hfit o, decode_toJson hcanonical o⟩, ⟨s, hraw, hsays, Field.says_typed hsays⟩,
    decode_toJson_iff⟩

theorem coerced_kept_looks :
    (coerceRaw "x" .float (some " 5 ") = .ok (some (.float (.ofInt 5))) ∧
      decode .value (Doc.ofJson (.real (.ofInt 5))) = .ok (.float (.ofInt 5))) ∧
    (coerceRaw "x" .int (some "1") = .ok (some (.int 1)) ∧
      decode .value (Doc.ofJson (.int 1)) = .ok (.int 1)) ∧
    (coerceRaw "x" .dict (some "null") = .ok (some (.str "null")) ∧
      decode .value (Doc.ofJson (.str "null")) = .ok (.str "null")) := by
  have hfloat : coerceRaw "x" .float (some " 5 ") = .ok (some (.float (.ofInt 5))) := rfl
  have hint : coerceRaw "x" .int (some "1") = .ok (some (.int 1)) := rfl
  have htext : coerceRaw "x" .dict (some "null") = .ok (some (.str "null")) := rfl
  exact ⟨⟨hfloat, ((coerced_kept hfloat).2.2.1 .value).2⟩, ⟨hint, ((coerced_kept hint).2.2.1 .value).2⟩,
    ⟨htext, ((coerced_kept htext).2.2.1 .value).2⟩⟩

end FieldValue

end NodeRun
