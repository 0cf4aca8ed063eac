import NodeRun.Proofs.Wire.Framing

/-!
Text that ends with an object behind a colon can be cut before that object in one way only. Suppose
that the text of an object ended so. For a reader who comes from its front, the last object would
begin outside the strings, and the objects around it would never be closed, or in a string, and what
is outside its own strings would be inside for that reader and the reverse, up to the end.
-/

namespace NodeRun

/-- Where a reader of JSON text stands, in so many objects: outside the strings, in one, or behind a
backslash in one. -/
inductive Cursor where
  | outside (depth : Nat)
  | inside (depth : Nat)
  | escaped (depth : Nat)
  deriving DecidableEq, Repr

namespace Cursor

/-- A brace that closes nothing and a backslash outside the strings stop the reader. -/
def next : Cursor → Char → Option Cursor
  | outside d, c =>
    if c = '"' then some (inside d)
    else if c = '\\' then none
    else if c = '\x7b' then some (outside (d + 1))
    else if c = '\x7d' then if d = 0 then none else some (outside (d - 1))
    else some (outside d)
  | inside d, c =>
    if c = '"' then some (outside d) else if c = '\\' then some (escaped d) else some (inside d)
  | escaped d, _ => some (inside d)

def scan : Cursor → List Char → Option Cursor
  | p, [] => some p
  | p, c :: cs => (p.next c).bind (fun q => q.scan cs)

def deepen (n : Nat) : Cursor → Cursor
  | outside d => outside (d + n)
  | inside d => inside (d + n)
  | escaped d => escaped (d + n)

/-- One of the two is in a string, and the other is not. -/
inductive Opposite : Cursor → Cursor → Prop
  | outside (d e : Nat) : Opposite (.outside d) (.inside e)
  | inside (d e : Nat) : Opposite (.inside d) (.outside e)

variable {p q p' q' : Cursor} {c : Char} {cs ds : List Char}

theorem scan_append (p : Cursor) (cs ds : List Char) :
    p.scan (cs ++ ds) = (p.scan cs).bind (fun q => q.scan ds) := by
  induction cs generalizing p with
  | nil => rfl
  | cons c cs ih => simp only [List.cons_append, scan, ih, Option.bind_assoc]

theorem next_deepen (n : Nat) (h : p.next c = some q) :
    (p.deepen n).next c = some (q.deepen n) := by
  cases p with
  | outside d => grind [next, deepen]
  | inside d => grind [next, deepen]
  | escaped d =>
    cases h
    rfl

theorem scan_deepen (n : Nat) (h : p.scan cs = some q) :
    (p.deepen n).scan cs = some (q.deepen n) := by
  induction cs generalizing p with
  | nil =>
    cases h
    rfl
  | cons c cs ih =>
    obtain ⟨r, hr, hq⟩ := Option.bind_eq_some_iff.mp h
    simp only [scan, next_deepen n hr, Option.bind_some, ih hq]

theorem Opposite.next (h : Opposite p q) (hp : p.next c = some p') (hq : q.next c = some q') :
    Opposite p' q' := by
  cases h with
  | outside d e => grind [Cursor.next, Opposite]
  | inside d e => grind [Cursor.next, Opposite]

theorem Opposite.scan (h : Opposite p q) (hp : p.scan cs = some p') (hq : q.scan cs = some q') :
    Opposite p' q' := by
  induction cs generalizing p q with
  | nil =>
    cases hp
    cases hq
    exact h
  | cons c cs ih =>
    obtain ⟨r, hr, hp⟩ := Option.bind_eq_some_iff.mp hp
    obtain ⟨s, hs, hq⟩ := Option.bind_eq_some_iff.mp hq
    exact ih (h.next hr hs) hp hq

end Cursor

/-- Text that leaves a reader where it found him, and never closes more than it opened. -/
def Whole (cs : List Char) : Prop := (Cursor.outside 0).scan cs = some (.outside 0)

section Whole

open Cursor

variable {c : Char} {cs ds : List Char}

theorem Whole.scan (h : Whole cs) (d : Nat) : (outside d).scan cs = some (outside d) := by
  simpa only [deepen, Nat.zero_add] using scan_deepen d h

theorem Whole.append (h : Whole cs) (h' : Whole ds) : Whole (cs ++ ds) := by
  rw [Whole, scan_append, h, Option.bind_some, h']

theorem Whole.cons (hc : (outside 0).next c = some (outside 0)) (h : Whole cs) :
    Whole (c :: cs) := by
  rw [Whole, Cursor.scan, hc, Option.bind_some, h]

theorem scan_opened (h : Whole cs) : (outside 0).scan ('\x7b' :: cs) = some (outside 1) :=
  h.scan 1

theorem Whole.braced (h : Whole cs) : Whole ('\x7b' :: cs ++ ['\x7d']) := by
  rw [Whole, scan_append, scan_opened h]
  rfl

theorem Numeric.whole (h : Numeric cs) : Whole cs := by
  have hmarks : ∀ c ∈ numberMarks, (outside 0).next c = some (outside 0) := by simp [next]
  induction cs with
  | nil => rfl
  | cons c cs ih =>
    obtain ⟨hc, hcs⟩ := numeric_cons.mp h
    refine .cons ?_ (ih hcs)
    rcases hc with hdigit | hmark
    · have hne (d : Char) (hd : d.isDigit = false) : c ≠ d := by
        rintro rfl
        rw [hdigit] at hd
        cases hd
      simp [next, hne]
    · exact hmarks c hmark

end Whole

namespace Json

open Cursor

theorem scan_escapedChar (c : Char) : (inside 0).scan (escapedChar c) = some (inside 0) := by
  have hhex : ∀ k < 16, (inside 0).next (Text.hexDigit k) = some (inside 0) := by decide
  simp only [escapedChar]
  split
  · rfl
  split
  · rfl
  split
  · simp_all [scan, next]
  · rename_i hlow
    have hhigh := hhex (c.toNat / 16) (by omega)
    have hdigit := hhex (c.toNat % 16) (by omega)
    have hunit : (inside 0).scan ['\\', 'u', '0', '0', Text.hexDigit (c.toNat / 16),
        Text.hexDigit (c.toNat % 16)] = some (inside 0) := by
      show (inside 0).scan [Text.hexDigit (c.toNat / 16), Text.hexDigit (c.toNat % 16)] = _
      simp only [scan, hhigh, hdigit, Option.bind_some]
    iterate 5
      split
      · rfl
    exact hunit

theorem whole_stringText (s : String) : Whole (stringText s) := by
  have hescaped (cs : List Char) :
      (inside 0).scan (cs.flatMap escapedChar) = some (inside 0) := by
    induction cs with
    | nil => rfl
    | cons c cs ih => rw [List.flatMap_cons, scan_append, scan_escapedChar, Option.bind_some, ih]
  show (inside 0).scan (s.toList.flatMap escapedChar ++ ['"']) = some (outside 0)
  rw [scan_append, hescaped]
  rfl

mutual

theorem whole_text : ∀ j : Json, Whole j.text
  | .null => rfl
  | .bool true => rfl
  | .bool false => rfl
  | .int n => (numeric_intText n).whole
  | .real x => x.numeric_render.whole
  | .str s => whole_stringText s
  | .arr items => .cons rfl ((whole_itemsText items).append rfl)
  | .obj members => (whole_membersText members).braced

theorem whole_itemsText : ∀ js : List Json, Whole (itemsText js)
  | [] => rfl
  | [j] => whole_text j
  | j :: k :: js => (whole_text j).append (.cons rfl (whole_itemsText (k :: js)))

theorem whole_membersText : ∀ ms : List (String × Json), Whole (membersText ms)
  | [] => rfl
  | [(k, j)] => (whole_stringText k).append (.cons rfl (whole_text j))
  | (k, j) :: m :: ms =>
    ((whole_stringText k).append (.cons rfl (whole_text j))).append
      (.cons rfl (whole_membersText (m :: ms)))

end

theorem text_obj_ne_append (ms ns : List (String × Json)) (cs : List Char) :
    text (.obj ms) ≠ cs ++ ':' :: text (.obj ns) := by
  intro h
  cases cs with
  | nil => cases h
  | cons c cs =>
    obtain ⟨-, h⟩ := List.cons.inj h
    have hmembers : membersText ms = cs ++ ':' :: '\x7b' :: membersText ns :=
      List.append_cancel_right (by simpa [text] using h)
    have hscan := whole_membersText ms
    rw [hmembers, Whole, scan_append] at hscan
    obtain ⟨p, -, hp⟩ := Option.bind_eq_some_iff.mp hscan
    obtain ⟨q, hq, hlast⟩ := Option.bind_eq_some_iff.mp hp
    have hown := scan_opened (whole_membersText ns)
    cases q with
    | outside d =>
      -- The objects around the last one are never closed.
      have hdeep := scan_deepen d hown
      rw [deepen, Nat.zero_add, hlast] at hdeep
      have hzero : 0 = 1 + d := Cursor.outside.inj (Option.some.inj hdeep)
      omega
    | inside d =>
      -- The reader would end in a string.
      cases (Opposite.outside 0 d).scan hown hlast
    | escaped d => cases p <;> simp [next] at hq

theorem append_text_obj_inj {cs ds : List Char} {ms ns : List (String × Json)}
    (h : cs ++ ':' :: text (.obj ms) = ds ++ ':' :: text (.obj ns)) :
    cs = ds ∧ text (.obj ms) = text (.obj ns) := by
  rcases List.append_eq_append_iff.mp h with ⟨as, hds, hms⟩ | ⟨as, hcs, hns⟩
  · cases as with
    | nil => exact ⟨by simpa using hds.symm, (List.cons.inj hms).2⟩
    | cons a as => exact absurd (List.cons.inj hms).2 (text_obj_ne_append ms ns as)
  · cases as with
    | nil => exact ⟨by simpa using hcs, (List.cons.inj hns).2.symm⟩
    | cons a as => exact absurd (List.cons.inj hns).2 (text_obj_ne_append ns ms as)

end Json

end NodeRun
