import NodeRun.Proofs.Coercion.Grammar

namespace NodeRun

def FieldType.isScalar : FieldType → Bool
  | int | float | bool => true
  | _ => false

namespace Scalar

open Text

variable {raw : String} {type : FieldType} {v : FieldValue}

inductive Says (raw : String) : FieldType → FieldValue → Prop
  | int {cs : List Char} {n : Int64} (ht : Trims raw.toList cs) (hn : Numeral cs n.toInt) :
    Says raw .int (.int n)
  | float {cs : List Char} {x : Real64} (ht : Trims raw.toList cs) (hx : Number cs x)
    (hf : x.isFinite = true) : Says raw .float (.float x)
  | bool {cs : List Char} {b : Bool} (ht : Trims raw.toList cs) (hb : Truth cs b) :
    Says raw .bool (.bool b)
  | text {type : FieldType} (ht : type.isScalar = false) : Says raw type (.str raw)

theorem inRange_toInt (n : Int64) : InRange n.toInt := by
  have hlow := n.le_toInt
  have hhigh := n.toInt_lt
  constructor <;> simp only [int64Limit] <;> omega

theorem InRange.toInt_ofInt {n : Int} (h : InRange n) : (Int64.ofInt n).toInt = n := by
  obtain ⟨hlow, hhigh⟩ := h
  simp only [int64Limit] at hlow hhigh
  exact Int64.toInt_ofInt_of_le (by omega) (by omega)

theorem read_of_not_isScalar (h : type.isScalar = false) (raw : String) :
    read type raw = .ok (.str raw) := by
  cases type with
  | int => cases h
  | float => cases h
  | bool => cases h
  | _ => rfl

theorem read_eq_ok_iff : read type raw = .ok v ↔ Says raw type v := by
  have htrim := trims_trimmed raw.toList
  constructor
  · intro h
    cases type with
    | int =>
      obtain ⟨n, hn, rfl⟩ := Decode.map_eq_ok.mp h
      obtain ⟨hnum, hrange⟩ := readInteger_eq_ok_iff.mp hn
      rw [← hrange.toInt_ofInt] at hnum
      exact .int htrim hnum
    | float =>
      obtain ⟨x, hx, rfl⟩ := Decode.map_eq_ok.mp h
      obtain ⟨hnum, hf⟩ := readFinite_eq_ok_iff.mp hx
      exact .float htrim hnum hf
    | bool =>
      obtain ⟨b, hb, rfl⟩ := Decode.map_eq_ok.mp h
      exact .bool htrim (readBool_eq_ok_iff.mp hb)
    | _ =>
      cases h
      exact .text rfl
  · intro h
    cases h with
    | int ht hn =>
      rename_i cs n
      have hread := readInteger_eq_ok_iff.mpr ⟨hn, inRange_toInt n⟩
      simp only [read, ht.trimmed_eq, hread, Except.map, Int64.ofInt_toInt]
    | float ht hx hf =>
      have hread := readFinite_eq_ok_iff.mpr ⟨hx, hf⟩
      simp only [read, ht.trimmed_eq, hread, Except.map]
    | bool ht hb =>
      have hread := readBool_eq_ok_iff.mpr hb
      simp only [read, ht.trimmed_eq, hread, Except.map]
    | text ht => exact read_of_not_isScalar ht raw

theorem isBlank_of_isDigit {c : Char} (h : c.isDigit = true) : isBlank c = false := by
  rw [isDigit_iff] at h
  simp [isBlank]
  omega

theorem Numeral.not_isBlank {cs : List Char} {n : Int} (h : Numeral cs n) :
    ∀ c ∈ cs, isBlank c = false := by
  obtain ⟨hs, hd⟩ := h
  rw [List.forall_mem_append]
  constructor
  · cases hs with
    | unset => simp
    | plus => simp [isBlank]
    | minus => simp [isBlank]
  · exact fun c hc => isBlank_of_isDigit (hd.digit c hc)

theorem Numeral.ne_nil {cs : List Char} {n : Int} (h : Numeral cs n) : cs ≠ [] := by
  obtain ⟨hs, hd⟩ := h
  exact fun hnil => hd.ne_nil (List.append_eq_nil_iff.mp hnil).2

theorem digits_digitText (n : Nat) : Digits (digitText n) :=
  ⟨Nat.toDigits_ne_nil, fun _ hc => Nat.isDigit_of_mem_toDigits (by decide) (by decide) hc⟩

theorem numeral_intText (n : Int) : Numeral (intText n) n := by
  have hvalue (k : Nat) : valueOf (digitText k) = k := Nat.ofDigitChars_ten_toDigits
  unfold intText
  split
  · have hn := Numeral.mk .minus (digits_digitText n.natAbs)
    rwa [hvalue, show signed true n.natAbs = n by simp only [signed, if_true]; omega] at hn
  · have hn := Numeral.mk .unset (digits_digitText n.natAbs)
    rwa [hvalue, show signed false n.natAbs = n by
      simp only [signed, Bool.false_eq_true, if_false]; omega] at hn

theorem says_intText (n : Int64) {before after : List Char} (hbefore : Blanks before)
    (hafter : Blanks after) :
    Says (String.ofList (before ++ intText n.toInt ++ after)) .int (.int n) := by
  have hnum := numeral_intText n.toInt
  refine .int ?_ hnum
  rw [String.toList_ofList]
  refine ⟨before, after, rfl, hbefore, hafter, ?_, ?_⟩
  · exact fun c hc => hnum.not_isBlank c (List.mem_of_mem_head? hc)
  · exact fun c hc => hnum.not_isBlank c (List.mem_of_getLast? hc)

end Scalar

section coerceRaw

open Text Scalar

variable {identifier raw : String} {type : FieldType} {v : FieldValue} {e : Error}

theorem coerceRaw_eq_ok (h : raw ≠ "") (hv : Says raw type v) :
    coerceRaw identifier type (some raw) = .ok (some v) := by
  simp [coerceRaw, Option.filter, h, read_eq_ok_iff.mpr hv]

theorem coerceRaw_eq_ok_iff (h : raw ≠ "") :
    coerceRaw identifier type (some raw) = .ok (some v) ↔ Says raw type v := by
  constructor
  · intro hv
    simp only [coerceRaw, Option.filter, h, ne_eq, not_false_eq_true, decide_true, if_true] at hv
    split at hv
    · rename_i hread
      cases hv
      exact read_eq_ok_iff.mp hread
    · cases hv
  · exact coerceRaw_eq_ok h

theorem coerceRaw_of_unsaid (h : raw ≠ "") (hv : ∀ v, ¬ Says raw type v) :
    ∃ reason, coerceRaw identifier type (some raw) = .error (.parse identifier type raw reason) := by
  cases hread : read type raw with
  | ok v => exact absurd (read_eq_ok_iff.mp hread) (hv v)
  | error reason => exact ⟨reason, by simp [coerceRaw, Option.filter, h, hread]⟩

theorem coerceRaw_exact (identifier raw : String) (h : raw ≠ "") :
    (∀ n : Int,
      (∃ m : Int64, m.toInt = n ∧ coerceRaw identifier .int (some raw) = .ok (some (.int m))) ↔
        (∃ cs, Trims raw.toList cs ∧ Numeral cs n) ∧ -2 ^ 63 ≤ n ∧ n < 2 ^ 63) ∧
    (∀ b, coerceRaw identifier .bool (some raw) = .ok (some (.bool b)) ↔
      ∃ cs, Trims raw.toList cs ∧ Truth cs b) ∧
    (∀ x, coerceRaw identifier .float (some raw) = .ok (some (.float x)) ↔
      (∃ cs, Trims raw.toList cs ∧ Number cs x) ∧ x.isFinite = true) ∧
    (∀ type, type.isScalar = false →
      coerceRaw identifier type (some raw) = .ok (some (.str raw))) ∧
    (∀ type,
      (∃ v, Says raw type v ∧ coerceRaw identifier type (some raw) = .ok (some v)) ∨
      (∀ v, ¬ Says raw type v) ∧
        ∃ reason, coerceRaw identifier type (some raw) =
          .error (.parse identifier type raw reason)) ∧
    ∀ (n : Int64) (before after : List Char), Blanks before → Blanks after →
      coerceRaw identifier .int (some (String.ofList (before ++ intText n.toInt ++ after))) =
        .ok (some (.int n)) := by
  refine ⟨fun n => ?_, fun b => ?_, fun x => ?_, fun type ht => ?_, fun type => ?_,
    fun n before after hbefore hafter => ?_⟩
  · constructor
    · rintro ⟨m, rfl, hm⟩
      cases (coerceRaw_eq_ok_iff h).mp hm with
      | int ht hn => exact ⟨⟨_, ht, hn⟩, m.le_toInt, m.toInt_lt⟩
    · rintro ⟨⟨cs, ht, hn⟩, hlow, hhigh⟩
      have hm : (Int64.ofInt n).toInt = n := Int64.toInt_ofInt_of_le hlow hhigh
      exact ⟨Int64.ofInt n, hm, coerceRaw_eq_ok h (.int ht (hm.symm ▸ hn))⟩
  · rw [coerceRaw_eq_ok_iff h]
    constructor
    · rintro ⟨⟩
      exact ⟨_, by assumption, by assumption⟩
    · rintro ⟨cs, ht, hb⟩
      exact .bool ht hb
  · rw [coerceRaw_eq_ok_iff h]
    constructor
    · rintro ⟨⟩
      exact ⟨⟨_, by assumption, by assumption⟩, by assumption⟩
    · rintro ⟨⟨cs, ht, hx⟩, hf⟩
      exact .float ht hx hf
  · exact coerceRaw_eq_ok h (.text ht)
  · by_cases hv : ∃ v, Says raw type v
    · obtain ⟨v, hv⟩ := hv
      exact .inl ⟨v, hv, coerceRaw_eq_ok h hv⟩
    · exact .inr ⟨not_exists.mp hv, coerceRaw_of_unsaid h (not_exists.mp hv)⟩
  · refine coerceRaw_eq_ok ?_ (says_intText n hbefore hafter)
    intro hempty
    have hnil := congrArg String.toList hempty
    rw [String.toList_ofList] at hnil
    exact (numeral_intText n.toInt).ne_nil
      (List.append_eq_nil_iff.mp (List.append_eq_nil_iff.mp hnil).1).2

theorem coerceRaw_exact_signed :
    " -7\n" ≠ "" ∧ coerceRaw "k" .int (some " -7\n") = .ok (some (.int (-7))) := by
  have hraw : " -7\n" ≠ "" := by decide
  have ht : Trims " -7\n".toList ['-', '7'] :=
    ⟨[' '], ['\n'], by simp, by simp [Blanks, isBlank], by simp [Blanks, isBlank],
      by simp [isBlank], by simp [isBlank]⟩
  have hn : Numeral ['-', '7'] (-7) := .mk .minus ⟨by simp, by simp⟩
  obtain ⟨m, hm, hv⟩ :=
    ((coerceRaw_exact "k" " -7\n" hraw).1 (-7)).mpr ⟨⟨_, ht, hn⟩, by decide, by decide⟩
  have hseven : m = -7 := Int64.toInt_inj.mp hm
  exact ⟨hraw, hseven ▸ hv⟩

end coerceRaw

end NodeRun
