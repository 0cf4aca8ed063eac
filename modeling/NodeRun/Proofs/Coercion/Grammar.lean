import Mathlib
import NodeRun.Coercion
import NodeRun.Proofs.Wire.Decoder

namespace NodeRun

namespace Text

section Ranges

variable {c : Char}

theorem isDigit_iff : c.isDigit = true ↔ 48 ≤ c.toNat ∧ c.toNat ≤ 57 := by
  rw [Char.isDigit, Bool.and_eq_true, decide_eq_true_iff, decide_eq_true_iff]
  exact Iff.rfl

theorem isUpper_iff : c.isUpper = true ↔ 65 ≤ c.toNat ∧ c.toNat ≤ 90 := by
  rw [Char.isUpper, decide_eq_true_iff]
  exact Iff.rfl

theorem isLower_iff : c.isLower = true ↔ 97 ≤ c.toNat ∧ c.toNat ≤ 122 := by
  rw [Char.isLower, Bool.and_eq_true, decide_eq_true_iff, decide_eq_true_iff]
  exact Iff.rfl

end Ranges

variable {raw cs before after : List Char}

def Blanks (cs : List Char) : Prop := ∀ c ∈ cs, isBlank c = true

def Trims (raw cs : List Char) : Prop :=
  ∃ before after, raw = before ++ cs ++ after ∧ Blanks before ∧ Blanks after ∧
    (∀ c ∈ cs.head?, isBlank c = false) ∧ ∀ c ∈ cs.getLast?, isBlank c = false

theorem dropWhile_of_head {p : Char → Bool} (h : ∀ c ∈ cs.head?, p c = false) (ds : List Char)
    (hds : cs ≠ []) : (cs ++ ds).dropWhile p = cs ++ ds := by
  cases cs with
  | nil => exact absurd rfl hds
  | cons c cs => simp [h c rfl]

theorem Trims.trimmed_eq (h : Trims raw cs) : trimmed raw = cs := by
  obtain ⟨before, after, rfl, hbefore, hafter, hhead, hlast⟩ := h
  have hfront : (before ++ cs ++ after).dropWhile isBlank = (cs ++ after).dropWhile isBlank := by
    rw [List.append_assoc, List.dropWhile_append_of_pos hbefore]
  by_cases hcs : cs = []
  · subst hcs
    have hnone : after.dropWhile isBlank = [] := List.dropWhile_eq_nil_iff.mpr hafter
    simp only [trimmed, hfront, List.nil_append, hnone, List.reverse_nil, List.dropWhile_nil]
  · have hback : (after.reverse ++ cs.reverse).dropWhile isBlank = cs.reverse := by
      rw [List.dropWhile_append_of_pos (fun c hc => hafter c (List.mem_reverse.mp hc))]
      have hend : ∀ c ∈ cs.reverse.head?, isBlank c = false := by
        rwa [List.head?_reverse]
      simpa using dropWhile_of_head hend [] (by simpa using hcs)
    rw [trimmed, hfront, dropWhile_of_head hhead after hcs, List.reverse_append, hback,
      List.reverse_reverse]

theorem trims_trimmed (raw : List Char) : Trims raw (trimmed raw) := by
  let rest := raw.dropWhile isBlank
  have hkept : trimmed raw = rest.rdropWhile isBlank := rfl
  refine ⟨raw.takeWhile isBlank, rest.rtakeWhile isBlank, ?_, ?_, ?_, ?_, ?_⟩
  · rw [hkept, List.append_assoc, List.rdropWhile_append_rtakeWhile,
      List.takeWhile_append_dropWhile]
  · exact fun c hc => List.mem_takeWhile_imp hc
  · exact fun c hc => List.mem_rtakeWhile_imp hc
  · intro c hc
    rw [hkept] at hc
    have hrest : rest.head? = some c := by
      obtain ⟨tail, htail⟩ := List.rdropWhile_prefix isBlank rest
      rw [← htail, List.head?_append, hc]
      rfl
    have hnot := List.head?_dropWhile_not isBlank raw
    rwa [show (raw.dropWhile isBlank).head? = some c from hrest] at hnot
  · intro c hc
    rw [hkept] at hc
    obtain ⟨hne, rfl⟩ := List.mem_getLast?_eq_getLast hc
    simpa using List.rdropWhile_last_not isBlank rest hne

end Text

namespace Scalar

open Text

variable {cs ds : List Char} {negative : Bool}

inductive Sign : List Char → Bool → Prop
  | unset : Sign [] false
  | plus : Sign ['+'] false
  | minus : Sign ['-'] true

def signed (negative : Bool) (k : Nat) : Int := if negative then -k else k

structure Digits (ds : List Char) : Prop where
  ne_nil : ds ≠ []
  digit : ∀ c ∈ ds, c.isDigit = true

abbrev valueOf (ds : List Char) : Nat := Nat.ofDigitChars 10 ds 0

inductive Numeral : List Char → Int → Prop
  | mk {sign ds : List Char} {negative : Bool} (hs : Sign sign negative) (hd : Digits ds) :
    Numeral (sign ++ ds) (signed negative (valueOf ds))

def InRange (n : Int) : Prop := -int64Limit ≤ n ∧ n < int64Limit

def Opens (ds : List Char) : Prop := ∃ c ∈ ds.head?, c.isDigit = true ∨ c = '.'

theorem Digits.opens (h : Digits ds) (rest : List Char) : Opens (ds ++ rest) := by
  obtain ⟨hne, hdigit⟩ := h
  cases ds with
  | nil => exact absurd rfl hne
  | cons c cs => exact ⟨c, rfl, .inl (hdigit c List.mem_cons_self)⟩

theorem Opens.splitSign_eq (h : Opens ds) {sign : List Char} (hs : Sign sign negative) :
    splitSign (sign ++ ds) = (negative, ds) := by
  cases hs with
  | plus => rfl
  | minus => rfl
  | unset =>
    obtain ⟨c, hc, hopen⟩ := h
    simp only [List.nil_append]
    unfold splitSign
    split
    · cases hc
      exact absurd hopen (by decide)
    · cases hc
      exact absurd hopen (by decide)
    · rfl

theorem sign_splitSign (cs : List Char) :
    ∃ sign, Sign sign (splitSign cs).1 ∧ cs = sign ++ (splitSign cs).2 := by
  unfold splitSign
  split
  · exact ⟨['+'], .plus, rfl⟩
  · exact ⟨['-'], .minus, rfl⟩
  · exact ⟨[], .unset, rfl⟩

theorem numeral_iff {n : Int} :
    Numeral cs n ↔ Digits (splitSign cs).2 ∧ n = signed (splitSign cs).1 (valueOf (splitSign cs).2) := by
  constructor
  · rintro ⟨hs, hd⟩
    have hopens := hd.opens []
    rw [List.append_nil] at hopens
    rw [hopens.splitSign_eq hs]
    exact ⟨hd, rfl⟩
  · rintro ⟨hd, rfl⟩
    obtain ⟨sign, hs, hcs⟩ := sign_splitSign cs
    have hn := Numeral.mk hs hd
    rwa [← hcs] at hn

theorem digit?_of_isDigit {c : Char} (h : c.isDigit = true) :
    digit? c = some (c.toNat - '0'.toNat) := by
  simp [digit?, h]

theorem digit?_of_not_isDigit {c : Char} (h : ¬ c.isDigit = true) : digit? c = none := by
  simp [digit?, h]

theorem le_ofDigitChars (ds : List Char) (k : Nat) : k ≤ Nat.ofDigitChars 10 ds k := by
  induction ds generalizing k with
  | nil => simp
  | cons c cs ih =>
    rw [Nat.ofDigitChars_cons]
    exact le_trans (by omega) (ih _)

theorem InRange.of_le {k m : Nat} (h : InRange (signed negative m)) (hk : k ≤ m) :
    InRange (signed negative k) := by
  cases negative <;> simp only [InRange, signed, int64Limit, Bool.false_eq_true, if_false,
    if_true] at h ⊢ <;> omega

theorem readDigits_eq_ok_iff {ds : List Char} {k : Nat} {n : Int}
    (hk : InRange (signed negative k)) :
    readDigits negative (signed negative k) ds = .ok n ↔
      (∀ c ∈ ds, c.isDigit = true) ∧ n = signed negative (Nat.ofDigitChars 10 ds k) ∧
        InRange n := by
  induction ds generalizing k with
  | nil =>
    simp only [readDigits, Except.ok.injEq, Nat.ofDigitChars_nil]
    constructor
    · rintro rfl
      exact ⟨by simp, rfl, hk⟩
    · rintro ⟨-, rfl, -⟩
      rfl
  | cons c cs ih =>
    by_cases hc : c.isDigit = true
    · simp only [readDigits, digit?_of_isDigit hc, Nat.ofDigitChars_cons]
      generalize c.toNat - '0'.toNat = d
      have hnext : (if negative then signed negative k * 10 - d else signed negative k * 10 + d) =
          signed negative (10 * k + d) := by
        cases negative <;> simp [signed] <;> omega
      -- Numbers only grow with their digits, so the check of the last digit decides.
      have hbefore (hn : InRange (signed negative (Nat.ofDigitChars 10 cs (10 * k + d)))) :
          InRange (signed negative (10 * k + d)) := hn.of_le (le_ofDigitChars _ _)
      rw [hnext]
      split
      · rename_i hlow
        simp only [reduceCtorEq, false_iff]
        rintro ⟨-, rfl, hn⟩
        exact absurd hlow (not_lt.mpr (hbefore hn).1)
      · split
        · rename_i hhigh
          simp only [reduceCtorEq, false_iff]
          rintro ⟨-, rfl, hn⟩
          exact absurd hhigh (not_le.mpr (hbefore hn).2)
        · rename_i hlow hhigh
          rw [ih ⟨not_lt.mp hlow, not_le.mp hhigh⟩]
          simp [hc]
    · simp [readDigits, digit?_of_not_isDigit hc, hc]

theorem readInteger_eq (cs : List Char) :
    readInteger cs =
      if cs = [] then .error .emptyInteger
      else if (splitSign cs).2 = [] then .error .invalidDigit
      else readDigits (splitSign cs).1 0 (splitSign cs).2 := by
  unfold readInteger
  split
  · rfl
  · rfl
  · rfl
  · rename_i cs hcs
    have hne : cs ≠ [] := fun h => hcs (by rw [h])
    simp [splitSign, hne]
  · rename_i cs hcs
    have hne : cs ≠ [] := fun h => hcs (by rw [h])
    simp [splitSign, hne]
  · rename_i hnil _ _ hplus hminus
    have hsplit : splitSign cs = (false, cs) := by
      unfold splitSign
      split
      · exact absurd rfl (hplus _)
      · exact absurd rfl (hminus _)
      · rfl
    have hne : cs ≠ [] := hnil
    simp [hsplit, hne]

theorem readInteger_eq_ok_iff {n : Int} : readInteger cs = .ok n ↔ Numeral cs n ∧ InRange n := by
  have hzero : InRange (signed (splitSign cs).1 0) := by
    simp [signed, InRange, int64Limit]
  have hstart : signed (splitSign cs).1 0 = 0 := by simp [signed]
  have hread : readDigits (splitSign cs).1 0 (splitSign cs).2 = .ok n ↔ _ :=
    hstart ▸ readDigits_eq_ok_iff hzero
  rw [numeral_iff, readInteger_eq]
  by_cases hcs : cs = []
  · subst hcs
    simp only [if_pos, reduceCtorEq, false_iff]
    rintro ⟨⟨hd, -⟩, -⟩
    exact hd.ne_nil rfl
  · rw [if_neg hcs]
    by_cases hds : (splitSign cs).2 = []
    · simp only [hds, if_pos, reduceCtorEq, false_iff]
      rintro ⟨⟨hd, -⟩, -⟩
      exact hd.ne_nil rfl
    · rw [if_neg hds, hread]
      constructor
      · rintro ⟨hd, hn, hr⟩
        exact ⟨⟨⟨hds, hd⟩, hn⟩, hr⟩
      · rintro ⟨⟨hd, hn⟩, hr⟩
        exact ⟨hd.digit, hn, hr⟩

/-- `cs` is `word` with some of its letters written large. -/
def CaseOf (word cs : List Char) : Prop := List.Forall₂ (fun w c => c = w ∨ c = w.toUpper) word cs

inductive Truth : List Char → Bool → Prop
  | one : Truth ['1'] true
  | zero : Truth ['0'] false
  | yes {cs : List Char} (h : CaseOf "true".toList cs) : Truth cs true
  | no {cs : List Char} (h : CaseOf "false".toList cs) : Truth cs false

theorem toLower_eq_iff {w c : Char} (hw : w.toLower = w) :
    c.toLower = w ↔ c = w ∨ c = w.toUpper := by
  constructor
  · rintro rfl
    by_cases hc : c.isUpper = true
    · right
      have hlow : ¬ c.isLower = true := by
        rw [isLower_iff]
        rw [isUpper_iff] at hc
        omega
      rw [Char.toUpper_toLower_eq_toUpper, Char.toUpper_eq_of_not_isLower hlow]
    · left
      rw [Char.toLower_eq_of_not_isUpper hc]
  · rintro (rfl | rfl)
    · exact hw
    · rw [Char.toLower_toUpper_eq_toLower, hw]

theorem lower_eq_iff {word : List Char} (hw : ∀ w ∈ word, w.toLower = w) :
    lower cs = word ↔ CaseOf word cs := by
  induction word generalizing cs with
  | nil => cases cs <;> simp [lower, CaseOf]
  | cons w ws ih =>
    cases cs with
    | nil => simp [lower, CaseOf]
    | cons c cs =>
      have hrest : lower cs = ws ↔ CaseOf ws cs :=
        ih (fun x hx => hw x (List.mem_cons_of_mem _ hx))
      simp only [lower, CaseOf] at hrest
      simp only [lower, CaseOf, List.map_cons, List.cons.injEq, List.forall₂_cons, hrest,
        toLower_eq_iff (hw w List.mem_cons_self)]

theorem caseOf_digit {d : Char} (h : d.toUpper = d) : CaseOf [d] cs ↔ cs = [d] := by
  cases cs with
  | nil => simp [CaseOf]
  | cons c cs => simp [CaseOf, h]

theorem readBool_eq_ok_iff {b : Bool} : readBool cs = .ok b ↔ Truth cs b := by
  have hword {word : String} (h : ∀ w ∈ word.toList, w.toLower = w) :
      String.ofList (lower cs) = word ↔ CaseOf word.toList cs := by
    rw [← lower_eq_iff h, ← String.toList_inj, String.toList_ofList]
  have htrue : String.ofList (lower cs) = "true" ↔ CaseOf "true".toList cs := hword (by simp)
  have hfalse : String.ofList (lower cs) = "false" ↔ CaseOf "false".toList cs := hword (by simp)
  have hone : String.ofList (lower cs) = "1" ↔ cs = ['1'] :=
    (hword (by simp)).trans (caseOf_digit (by decide))
  have hzero : String.ofList (lower cs) = "0" ↔ cs = ['0'] :=
    (hword (by simp)).trans (caseOf_digit (by decide))
  constructor
  · intro h
    simp only [readBool] at h
    split at h
    · rename_i hw
      cases h
      rcases hw with hw | hw
      · exact .yes (htrue.mp hw)
      · rw [hone.mp hw]
        exact .one
    · split at h
      · rename_i hw
        cases h
        rcases hw with hw | hw
        · exact .no (hfalse.mp hw)
        · rw [hzero.mp hw]
          exact .zero
      · cases h
  · intro h
    cases h with
    | one => rfl
    | zero => rfl
    | yes h => simp [readBool, htrue.mpr h]
    | no h => simp [readBool, hfalse.mpr h]

inductive Exponent : List Char → Int → Prop
  | unset : Exponent [] 0
  | set {c : Char} {cs : List Char} {e : Int} (hc : c = 'e' ∨ c = 'E') (hn : Numeral cs e) :
    Exponent (c :: cs) e

/-- Digits, with or without a point among them, and an exponent: the number `m * 10 ^ e`. -/
inductive Literal : List Char → Nat → Int → Prop
  | whole {ds es : List Char} {e : Int} (hd : Digits ds) (he : Exponent es e) :
    Literal (ds ++ es) (valueOf ds) e
  | pointed {ds fs es : List Char} {e : Int} (hd : Digits (ds ++ fs)) (he : Exponent es e) :
    Literal (ds ++ '.' :: (fs ++ es)) (valueOf (ds ++ fs)) (e - fs.length)

inductive Number : List Char → Real64 → Prop
  | mk {sign body : List Char} {negative : Bool} {m : Nat} {e : Int} (hs : Sign sign negative)
    (hb : Literal body m e) : Number (sign ++ body) (Real64.ofDecimal negative m e)

theorem natOf_eq (ds : List Char) : natOf ds = valueOf ds := by
  rw [valueOf, Nat.ofDigitChars_eq_foldl, natOf]
  simp only [Nat.mul_comm]
  rfl

theorem readExponent_eq_some_iff {e : Int} : readExponent cs = some e ↔ Exponent cs e := by
  cases cs with
  | nil =>
    constructor
    · rintro ⟨⟩
      exact .unset
    · rintro ⟨⟩
      rfl
  | cons c cs =>
    simp only [readExponent, natOf_eq]
    constructor
    · intro h
      split at h
      · rename_i hc
        cases h
        refine .set hc.1 (numeral_iff.mpr ⟨⟨hc.2.1, ?_⟩, rfl⟩)
        exact fun d hd => List.all_eq_true.mp hc.2.2 d hd
      · cases h
    · rintro ⟨⟩
      rename_i hc hn
      obtain ⟨hd, rfl⟩ := numeral_iff.mp hn
      rw [if_pos ⟨hc, hd.ne_nil, List.all_eq_true.mpr hd.digit⟩]
      rfl

theorem Exponent.head {es : List Char} {e : Int} (h : Exponent es e) :
    ∀ c ∈ es.head?, c.isDigit = false ∧ c ≠ '.' := by
  cases h with
  | unset => simp
  | set hc hn =>
    rintro c ⟨⟩
    rcases hc with rfl | rfl <;> decide

theorem digits_of_head {rest : List Char} (hd : ∀ c ∈ ds, c.isDigit = true)
    (hr : ∀ c ∈ rest.head?, c.isDigit = false) :
    (ds ++ rest).takeWhile Char.isDigit = ds ∧ (ds ++ rest).dropWhile Char.isDigit = rest := by
  rw [List.takeWhile_append_of_pos hd, List.dropWhile_append_of_pos hd]
  cases rest with
  | nil => simp
  | cons c cs => simp [hr c rfl]

theorem exists_digits (cs : List Char) :
    ∃ ds rest, cs = ds ++ rest ∧ (∀ c ∈ ds, c.isDigit = true) ∧
      ∀ c ∈ rest.head?, c.isDigit = false := by
  refine ⟨cs.takeWhile Char.isDigit, cs.dropWhile Char.isDigit,
    List.takeWhile_append_dropWhile.symm, fun c hc => List.mem_takeWhile_imp hc, ?_⟩
  intro c hc
  have hnot := List.head?_dropWhile_not Char.isDigit cs
  rwa [show (cs.dropWhile Char.isDigit).head? = some c from hc] at hnot

theorem readDecimal_whole {rest : List Char} (hd : ∀ c ∈ ds, c.isDigit = true)
    (hr : ∀ c ∈ rest.head?, c.isDigit = false ∧ c ≠ '.') :
    readDecimal negative (ds ++ rest) =
      if ds = [] then none
      else (readExponent rest).map (fun e => Real64.ofDecimal negative (valueOf ds) e) := by
  obtain ⟨htake, hdrop⟩ := digits_of_head hd (fun c hc => (hr c hc).1)
  simp only [readDecimal, htake, hdrop, natOf_eq]
  split
  · exact absurd rfl (hr _ rfl).2
  · simp

theorem readDecimal_pointed {fs rest : List Char} (hd : ∀ c ∈ ds, c.isDigit = true)
    (hf : ∀ c ∈ fs, c.isDigit = true) (hr : ∀ c ∈ rest.head?, c.isDigit = false) :
    readDecimal negative (ds ++ '.' :: (fs ++ rest)) =
      if ds ++ fs = [] then none
      else (readExponent rest).map
        (fun e => Real64.ofDecimal negative (valueOf (ds ++ fs)) (e - fs.length)) := by
  have hpoint : ∀ c ∈ ('.' :: (fs ++ rest)).head?, c.isDigit = false := by
    rintro c ⟨⟩
    rfl
  obtain ⟨htake, hdrop⟩ := digits_of_head hd hpoint
  obtain ⟨htake', hdrop'⟩ := digits_of_head hf hr
  simp only [readDecimal, htake, hdrop, htake', hdrop', natOf_eq, List.append_eq_nil_iff]

theorem readDecimal_eq_some_iff {x : Real64} :
    readDecimal negative cs = some x ↔
      ∃ m e, Literal cs m e ∧ x = Real64.ofDecimal negative m e := by
  constructor
  · intro h
    obtain ⟨ds, rest, rfl, hd, hr⟩ := exists_digits cs
    by_cases hpoint : rest.head? = some '.'
    · obtain ⟨tail, rfl⟩ := List.head?_eq_some_iff.mp hpoint
      obtain ⟨fs, es, rfl, hf, he⟩ := exists_digits tail
      rw [readDecimal_pointed hd hf he] at h
      split at h
      · cases h
      · rename_i hne
        obtain ⟨e, hexp, rfl⟩ := Option.map_eq_some_iff.mp h
        -- The digits on one side of the point may be missing, but not on both.
        have hdigits : Digits (ds ++ fs) := ⟨hne, by
          rw [List.forall_mem_append]
          exact ⟨hd, hf⟩⟩
        exact ⟨_, _, .pointed hdigits (readExponent_eq_some_iff.mp hexp), rfl⟩
    · have hr' : ∀ c ∈ rest.head?, c.isDigit = false ∧ c ≠ '.' :=
        fun c hc => ⟨hr c hc, fun heq => hpoint (heq ▸ hc)⟩
      rw [readDecimal_whole hd hr'] at h
      split at h
      · cases h
      · rename_i hne
        obtain ⟨e, hexp, rfl⟩ := Option.map_eq_some_iff.mp h
        exact ⟨_, _, .whole ⟨hne, hd⟩ (readExponent_eq_some_iff.mp hexp), rfl⟩
  · rintro ⟨m, e, hl, rfl⟩
    cases hl with
    | whole hd he =>
      rw [readDecimal_whole hd.digit he.head, if_neg hd.ne_nil, readExponent_eq_some_iff.mpr he]
      rfl
    | pointed hd he =>
      obtain ⟨hds, hfs⟩ := List.forall_mem_append.mp hd.digit
      rw [readDecimal_pointed hds hfs (fun c hc => (he.head c hc).1), if_neg hd.ne_nil,
        readExponent_eq_some_iff.mpr he]
      rfl

theorem Literal.opens {body : List Char} {m : Nat} {e : Int} (h : Literal body m e) :
    Opens body := by
  cases h with
  | whole hd he => exact hd.opens _
  | @pointed ds fs es e hd he =>
    cases ds with
    | nil => exact ⟨'.', rfl, .inr rfl⟩
    | cons c cs => exact ⟨c, rfl, .inl (hd.digit c List.mem_cons_self)⟩

theorem Opens.not_named (h : Opens ds) :
    ¬ (String.ofList (lower ds) = "inf" ∨ String.ofList (lower ds) = "infinity") ∧
      String.ofList (lower ds) ≠ "nan" := by
  obtain ⟨c, hc, hopen⟩ := h
  obtain ⟨tail, rfl⟩ := List.head?_eq_some_iff.mp hc
  have hlow : c.toLower = c := by
    refine Char.toLower_eq_of_not_isUpper ?_
    rcases hopen with hdigit | rfl
    · intro hup
      rw [isUpper_iff] at hup
      rw [isDigit_iff] at hdigit
      omega
    · decide
  have hfirst {word : String} (hw : String.ofList (lower (c :: tail)) = word) :
      word.toList.head? = some c := by
    rw [← hw, String.toList_ofList, lower, List.map_cons, hlow]
    rfl
  refine ⟨?_, ?_⟩
  · rintro (hw | hw)
    · have hi : 'i' = c := by simpa using hfirst hw
      exact absurd hopen (hi ▸ by decide)
    · have hi : 'i' = c := by simpa using hfirst hw
      exact absurd hopen (hi ▸ by decide)
  · intro hw
    have hn : 'n' = c := by simpa using hfirst hw
    exact absurd hopen (hn ▸ by decide)

theorem readFloat_of_opens (h : Opens ds) {sign : List Char} (hs : Sign sign negative) :
    readFloat (sign ++ ds) =
      (readDecimal negative ds).elim (.error .invalidFloat) .ok := by
  have hne : sign ++ ds ≠ [] := by
    intro hnil
    obtain ⟨c, hc, -⟩ := h
    rw [(List.append_eq_nil_iff.mp hnil).2] at hc
    cases hc
  simp only [readFloat, h.splitSign_eq hs, if_neg hne, if_neg h.not_named.1,
    if_neg h.not_named.2]
  cases readDecimal negative ds <;> rfl

theorem isFinite_infinity (negative : Bool) : (Real64.infinity negative).isFinite = false := by
  simp [Real64.infinity, Real64.isFinite, Real64.magnitude_ofMagnitude]

/-- The named values are not finite, so a finite value comes from a decimal. -/
theorem readDecimal_of_readFloat {x : Real64} (h : readFloat cs = .ok x)
    (hx : x.isFinite = true) :
    readDecimal (splitSign cs).1 (splitSign cs).2 = some x := by
  simp only [readFloat] at h
  split at h
  · cases h
  · split at h
    · rw [← Except.ok.inj h, isFinite_infinity] at hx
      cases hx
    · split at h
      · rw [← Except.ok.inj h] at hx
        exact absurd hx (by decide)
      · split at h
        · rename_i hdecimal
          rw [hdecimal, Except.ok.inj h]
        · cases h

theorem readFinite_eq_ok_iff {x : Real64} :
    readFinite cs = .ok x ↔ Number cs x ∧ x.isFinite = true := by
  constructor
  · intro h
    obtain ⟨y, hfloat, h⟩ := Decode.bind_eq_ok.mp h
    split at h
    · rename_i hfinite
      cases h
      obtain ⟨sign, hs, hcs⟩ := sign_splitSign cs
      obtain ⟨m, e, hl, rfl⟩ :=
        readDecimal_eq_some_iff.mp (readDecimal_of_readFloat hfloat hfinite)
      have hn := Number.mk hs hl
      rw [← hcs] at hn
      exact ⟨hn, hfinite⟩
    · cases h
  · rintro ⟨hn, hfinite⟩
    cases hn with
    | @mk sign body negative m e hs hb =>
      have hdecimal : readDecimal negative body = some (Real64.ofDecimal negative m e) :=
        readDecimal_eq_some_iff.mpr ⟨m, e, hb, rfl⟩
      refine Decode.bind_eq_ok.mpr ⟨_, ?_, if_pos hfinite⟩
      rw [readFloat_of_opens hb.opens hs, hdecimal]
      rfl

end Scalar

end NodeRun
