import NodeRun.Proofs.Wire.Message

namespace NodeRun

def Printable (cs : List Char) : Prop := ∀ c ∈ cs, 0x20 ≤ c.toNat

section Printable

variable {c : Char} {cs ds : List Char}

@[simp] theorem printable_nil : Printable [] := nofun

@[simp] theorem printable_cons : Printable (c :: cs) ↔ 0x20 ≤ c.toNat ∧ Printable cs :=
  List.forall_mem_cons

@[simp] theorem printable_append : Printable (cs ++ ds) ↔ Printable cs ∧ Printable ds :=
  List.forall_mem_append

end Printable

abbrev numberMarks : List Char := ['+', '-', '.', 'N', 'a', 'e', 'f', 'i', 'n']

def Numeric (cs : List Char) : Prop := ∀ c ∈ cs, c.isDigit = true ∨ c ∈ numberMarks

section Numeric

variable {c : Char} {cs ds : List Char}

@[simp] theorem numeric_nil : Numeric [] := nofun

@[simp] theorem numeric_cons :
    Numeric (c :: cs) ↔ (c.isDigit = true ∨ c ∈ numberMarks) ∧ Numeric cs :=
  List.forall_mem_cons

@[simp] theorem numeric_append : Numeric (cs ++ ds) ↔ Numeric cs ∧ Numeric ds :=
  List.forall_mem_append

theorem Numeric.sublist (h : Numeric ds) (hs : cs.Sublist ds) : Numeric cs :=
  fun c hc => h c (hs.subset hc)

theorem Numeric.printable (h : Numeric cs) : Printable cs := by
  have hmarks : ∀ c ∈ numberMarks, 0x20 ≤ c.toNat := by simp
  intro c hc
  rcases h c hc with hdigit | hmark
  · simp only [Char.isDigit, Bool.and_eq_true, decide_eq_true_eq, UInt32.le_iff_toNat_le] at hdigit
    exact Nat.le_trans (by decide) hdigit.1
  · exact hmarks c hmark

@[simp] theorem numeric_zeros (n : Nat) : Numeric (List.replicate n '0') := by
  intro c hc
  rw [List.eq_of_mem_replicate hc]
  exact .inl rfl

@[simp] theorem numeric_digitText (n : Nat) : Numeric (digitText n) :=
  fun _ hc => .inl (Nat.isDigit_of_mem_toDigits (by decide) (by decide) hc)

@[simp] theorem numeric_intText (n : Int) : Numeric (intText n) := by
  unfold intText
  split <;> simp

end Numeric

namespace Decimal

theorem numeric_positional (d : Decimal) : Numeric d.positional := by
  have hdigits := numeric_digitText d.digits
  simp only [positional]
  split
  · simp
  · split
    · simp [hdigits.sublist (List.take_sublist _ _), hdigits.sublist (List.drop_sublist _ _)]
    · simp

theorem numeric_scientific {plus : String} (h : Numeric plus.toList) (d : Decimal) :
    Numeric (d.scientific plus) := by
  have hdigits := numeric_digitText d.digits
  simp only [scientific, numeric_append, numeric_cons, numeric_intText, and_true]
  refine ⟨?_, by decide, ?_⟩
  · split
    · exact numeric_nil
    · rename_i c hc
      exact hc ▸ hdigits
    · rename_i c rest _ hc
      rw [hc, numeric_cons] at hdigits
      exact numeric_cons.mpr ⟨hdigits.1, numeric_cons.mpr ⟨by decide, hdigits.2⟩⟩
  · split
    · exact h
    · exact numeric_nil

end Decimal

theorem Real64.numeric_render (x : Real64) : Numeric (x.render RealStyle.json).toList := by
  have hplus : Numeric "+".toList := by simp
  let d := x.shortest RealStyle.json.tie
  have hbody : Numeric (if x.isZero || (RealStyle.json.lowest ≤ d.leading &&
      d.leading ≤ RealStyle.json.highest) then d.positional else d.scientific "+") := by
    split
    · exact d.numeric_positional
    · exact d.numeric_scientific hplus
  simp only [render]
  split
  · rw [String.toList_ofList]
    split
    · exact numeric_cons.mpr ⟨by decide, hbody⟩
    · exact hbody
  · split
    · simp
    · split <;> simp

namespace Json

theorem printable_escapedChar (c : Char) : Printable (escapedChar c) := by
  have hhex : ∀ k < 16, 0x20 ≤ (Text.hexDigit k).toNat := by decide
  simp only [escapedChar]
  split
  · simp
  split
  · simp
  split
  · simpa
  · rename_i hlow
    have hhigh := hhex (c.toNat / 16) (by omega)
    have hdigit := hhex (c.toNat % 16) (by omega)
    repeat' split
    all_goals simp [hhigh, hdigit]

@[simp] theorem printable_stringText (s : String) : Printable (stringText s) := by
  have hescaped : Printable (s.toList.flatMap escapedChar) := by
    intro c hc
    obtain ⟨d, _, hd⟩ := List.mem_flatMap.mp hc
    exact printable_escapedChar d c hd
  simp [stringText, hescaped]

mutual

theorem printable_text : ∀ j : Json, Printable j.text
  | .null => show Printable "null".toList by simp
  | .bool true => show Printable "true".toList by simp
  | .bool false => show Printable "false".toList by simp
  | .int n => (numeric_intText n).printable
  | .real x => x.numeric_render.printable
  | .str s => printable_stringText s
  | .arr items =>
    show Printable ('[' :: itemsText items ++ [']']) by simp [printable_itemsText items]
  | .obj members =>
    show Printable ('\x7b' :: membersText members ++ ['\x7d']) by
      simp [printable_membersText members]

theorem printable_itemsText : ∀ js : List Json, Printable (itemsText js)
  | [] => printable_nil
  | [j] => printable_text j
  | j :: k :: js => by simp [itemsText, printable_text j, printable_itemsText (k :: js)]

theorem printable_membersText : ∀ ms : List (String × Json), Printable (membersText ms)
  | [] => printable_nil
  | [(k, j)] => by simp [membersText, printable_text j]
  | (k, j) :: m :: ms => by
    simp [membersText, printable_text j, printable_membersText (m :: ms)]

end

end Json

namespace Stream

/-- The lines of a stream, given the beginning of the first one. A line ends with a line feed, a
carriage return or both. -/
def lines (line : List Char) : List Char → List (List Char)
  | [] => []
  | '\r' :: '\n' :: cs => line :: lines [] cs
  | c :: cs => if c = '\r' ∨ c = '\n' then line :: lines [] cs else lines (line ++ [c]) cs

def blocks (block : List (List Char)) : List (List Char) → List (List (List Char))
  | [] => []
  | [] :: ls => block :: blocks [] ls
  | l :: ls => blocks (block ++ [l]) ls

def data? : List (List Char) → Option (List Char)
  | [line] =>
    if Event.dataLabel.isPrefixOf line then some (line.drop Event.dataLabel.length) else none
  | _ => none

def received (cs : List Char) : List (Option (List Char)) := (blocks [] (lines [] cs)).map data?

theorem lines_append {line text : List Char} (h : Printable text) (cs : List Char) :
    lines line (text ++ '\n' :: cs) = (line ++ text) :: lines [] cs := by
  induction text generalizing line with
  | nil => simp [lines]
  | cons c text ih =>
    obtain ⟨hc, htext⟩ := printable_cons.mp h
    have hr : c ≠ '\r' := fun hr => absurd hc (hr ▸ by decide)
    have hn : c ≠ '\n' := fun hn => absurd hc (hn ▸ by decide)
    rw [List.cons_append, lines, if_neg (by simp [hr, hn]), ih htext]
    · simp
    · exact fun _ hr' => absurd hr' hr

theorem data?_line (cs : List Char) : data? [Event.dataLabel ++ cs] = some cs := by
  have hlabel : Event.dataLabel.isPrefixOf (Event.dataLabel ++ cs) = true :=
    List.isPrefixOf_iff_prefix.mpr (List.prefix_append _ _)
  rw [data?, if_pos hlabel, List.drop_left]

theorem received_frame_append (e : Event) (cs : List Char) :
    received (e.frame ++ cs) = some e.text :: received cs := by
  have hlabel : Printable Event.dataLabel := show Printable "data: ".toList by simp
  have hline : Printable (Event.dataLabel ++ e.text) :=
    printable_append.mpr ⟨hlabel, e.toJson.printable_text⟩
  have hframe : e.frame ++ cs = (Event.dataLabel ++ e.text) ++ '\n' :: '\n' :: cs := by
    simp [Event.frame]
  have hlines : lines [] (e.frame ++ cs) = (Event.dataLabel ++ e.text) :: [] :: lines [] cs := by
    rw [hframe, lines_append hline]
    rfl
  have hblocks : blocks [] (lines [] (e.frame ++ cs)) =
      [Event.dataLabel ++ e.text] :: blocks [] (lines [] cs) := by
    rw [hlines]
    rfl
  rw [received, hblocks, List.map_cons, data?_line, ← received]

theorem received_flatMap (es : List Event) :
    received (es.flatMap Event.frame) = es.map fun e => some e.text := by
  induction es with
  | nil => rfl
  | cons e es ih => rw [List.flatMap_cons, received_frame_append, ih, List.map_cons]

end Stream

namespace Event

theorem received_frames (es : List Event) :
    (∀ e : Event, e.frame = "data: ".toList ++ e.toJson.text ++ ['\n', '\n'] ∧
      Printable e.toJson.text) ∧
    Stream.received (es.flatMap frame) = es.map (fun e => some e.toJson.text) := by
  exact ⟨fun e => ⟨rfl, e.toJson.printable_text⟩, Stream.received_flatMap es⟩

example : Stream.received ([debug "a\n\ndata: b\r\n\r\n", done].flatMap frame) =
    [some (debug "a\n\ndata: b\r\n\r\n").text, some done.text] := by
  decide

/-- The texts that a client gets are those of values that it reads as the events. -/
theorem received_read (es : List Event) (hc : ∀ e ∈ es, e.Canonical) :
    ∃ js : List Json, Stream.received (es.flatMap frame) = js.map (fun j => some j.text) ∧
      js.mapM (fun j => Decode.ofJson decode j.normalize) = .ok es := by
  refine ⟨es.map toJson, ?_, ?_⟩
  · rw [Stream.received_flatMap, List.map_map]
    rfl
  · induction es with
    | nil => rfl
    | cons e es ih =>
      have he : Decode.ofJson decode e.toJson.normalize = .ok e :=
        strict_decode.ofJson_normalize (hc e (by simp))
      have hes := ih fun f hf => hc f (List.mem_cons_of_mem e hf)
      simp only [List.map_cons, List.mapM_cons, he, hes]
      rfl

end Event

end NodeRun
