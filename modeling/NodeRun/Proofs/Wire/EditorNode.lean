import NodeRun.Proofs.Wire.Workflow

namespace NodeRun

open Decode

namespace NodeKind

inductive Fits (data : Json) : String → Prop where
  | signature {s : Signature} (h : ofJson Signature.decode data = .ok s) : Fits data "signature"
  | retriever {r : Retriever} (h : ofJson Retriever.decode data = .ok r) : Fits data "retriever"
  | evaluator {e : Evaluator} (h : ofJson Evaluator.decode data = .ok e) : Fits data "evaluator"
  | terminal {t : Terminal} (h : ofJson Terminal.decode data = .ok t) : Fits data "end"

theorem ofData_of_fits {type : String} {data : Json} (h : Fits data type) :
    ∃ k, ofData type data = .ok k := by
  cases h with
  | signature h => exact ⟨_, congrArg (Except.map signature) h⟩
  | retriever h => exact ⟨_, congrArg (Except.map retriever) h⟩
  | evaluator h => exact ⟨_, congrArg (Except.map evaluator) h⟩
  | terminal h => exact ⟨_, congrArg (Except.map terminal) h⟩

theorem fits_of_ofData {type : String} {data : Json} {k : NodeKind} (ht : type ∈ compiled)
    (h : ofData type data = .ok k) : Fits data type ∧ k.typeName = type := by
  simp only [compiled, List.mem_cons, List.not_mem_nil, or_false] at ht
  rcases ht with rfl | rfl | rfl | rfl <;> obtain ⟨x, hx, rfl⟩ := map_eq_ok.mp h
  · exact ⟨.signature hx, rfl⟩
  · exact ⟨.retriever hx, rfl⟩
  · exact ⟨.evaluator hx, rfl⟩
  · exact ⟨.terminal hx, rfl⟩

end NodeKind

namespace Node

variable {o : Origin} {j : Json} {id type : String}

def dataOf (j : Json) : Json := dataOrEmpty ((j.get? "data").getD .null)

theorem decode_object (hj : j.Proper) (hid : j.get? "id" = some (.str id))
    (htype : j.get? "type" = some (.str type)) :
    decode o (Doc.ofJson j) = (NodeKind.ofData type (dataOf j)).map (Node.mk id) := by
  cases j with
  | obj ms =>
    obtain ⟨hsorted, hproper⟩ := Json.proper_obj.mp hj
    have hnormal : ∀ d ∈ Entries.get? ms "data", d.normalize = d := fun d hd =>
      (hproper _ (Entries.mem_of_get?_eq_some hd)).normalize_eq
    have hdata : (Entries.get? ms "data").map Json.normalize = Entries.get? ms "data" := by
      cases hd : Entries.get? ms "data" with
      | none => rfl
      | some d => exact congrArg some (hnormal d hd)
    have hshows : (Json.obj ms).Shows
        [("id", some (.str id)), ("type", some (.str type)), ("data", Entries.get? ms "data")] := by
      refine ⟨ms, rfl, hsorted, List.forall_mem_cons.mpr ⟨hid, List.forall_mem_cons.mpr
        ⟨htype, List.forall_mem_cons.mpr ⟨hdata.symm, nofun⟩⟩⟩⟩
    have hraw := lawful_raw.record_shows (x := (id, type, Entries.get? ms "data"))
      "struct RawNode" (fun d hd => by
        rw [hnormal d hd]
        exact hproper _ (Entries.mem_of_get?_eq_some hd)) hshows o
    simp only [hdata] at hraw
    show (Decode.record "struct RawNode" raw o (Doc.ofJson (.obj ms)) >>= _) = _
    rw [hraw]
    show (NodeKind.ofData type (dataOf (.obj ms)) >>= _) = _
    cases NodeKind.ofData type (dataOf (.obj ms)) <;> rfl
  | _ => exact nomatch hid

theorem decode_unknown (hj : j.Proper) (hid : j.get? "id" = some (.str id))
    (htype : j.get? "type" = some (.str type)) (h : type ∉ NodeKind.compiled) :
    decode o (Doc.ofJson j) = .ok ⟨id, .unsupported type (dataOf j)⟩ := by
  rw [decode_object hj hid htype, NodeKind.ofData_of_not_compiled h]
  rfl

def isEditors (j : Json) : Bool :=
  match j.get? "id", j.get? "type" with
  | some (.str _), some (.str type) => decide (type ∉ NodeKind.compiled)
  | _, _ => false

theorem decode_of_isEditors (hj : j.Proper) (h : isEditors j = true) (o : Origin) :
    ∃ n, decode o (Doc.ofJson j) = .ok n := by
  unfold isEditors at h
  split at h
  · rename_i id type hid htype
    exact ⟨_, decode_unknown hj hid htype (of_decide_eq_true h)⟩
  · cases h

end Node

inductive Corresponds {ε α β : Type} (R : α → β → Prop) : Except ε α → Except ε β → Prop where
  | ok {a : α} {b : β} (h : R a b) : Corresponds R (.ok a) (.ok b)
  | error (e : ε) : Corresponds R (.error e) (.error e)

namespace Corresponds

variable {ε ε' α β γ δ : Type} {R : α → β → Prop} {S : γ → δ → Prop}

theorem refl (x : Except ε α) : Corresponds Eq x x := by
  cases x with
  | ok a => exact .ok rfl
  | error e => exact .error e

theorem of_eq {x y : Except ε α} (h : x = y) : Corresponds Eq x y := h ▸ refl x

theorem bind {x : Except ε α} {y : Except ε β} {f : α → Except ε γ} {g : β → Except ε δ}
    (h : Corresponds R x y) (hfg : ∀ a b, R a b → Corresponds S (f a) (g b)) :
    Corresponds S (x >>= f) (y >>= g) := by
  cases h with
  | ok h => exact hfg _ _ h
  | error e => exact .error e

theorem bind_left {T : γ → β → Prop} {x : Except ε α} {y : Except ε β} {f : α → Except ε γ}
    (h : Corresponds R x y) (hf : ∀ a b, R a b → Corresponds T (f a) (.ok b)) :
    Corresponds T (x >>= f) y := by
  cases h with
  | ok h => exact hf _ _ h
  | error e => exact .error e

theorem map {x : Except ε α} {y : Except ε β} {f : α → γ} {g : β → δ} (h : Corresponds R x y)
    (hfg : ∀ a b, R a b → S (f a) (g b)) : Corresponds S (x.map f) (y.map g) := by
  cases h with
  | ok h => exact .ok (hfg _ _ h)
  | error e => exact .error e

theorem mapError {x : Except ε α} {y : Except ε β} (h : Corresponds R x y) (f : ε → ε') :
    Corresponds R (x.mapError f) (y.mapError f) := by
  cases h with
  | ok h => exact .ok h
  | error e => exact .error _

theorem both {f : Placed (α → γ)} {g : Placed (β → δ)} {x : Placed α} {y : Placed β}
    (hf : Corresponds (fun f g => ∀ a b, R a b → S (f a) (g b)) f g) (hx : Corresponds R x y) :
    Corresponds S (Placed.both f x) (Placed.both g y) := by
  cases hf with
  | ok hf =>
    cases hx with
    | ok hx => exact .ok (hf _ _ hx)
    | error e => exact .error e
  | error e =>
    cases hx with
    | ok hx => exact .error e
    | error e' => exact .error _

theorem join {T : α → γ → Prop} {U : β → γ → Prop} {x : Except ε α} {y : Except ε β}
    {z : Except ε γ} (hx : Corresponds T x z) (hy : Corresponds U y z) :
    Corresponds (fun a b => ∃ c, T a c ∧ U b c) x y := by
  cases hx with
  | ok hx =>
    cases hy with
    | ok hy => exact .ok ⟨_, hx, hy⟩
  | error e =>
    cases hy with
    | error => exact .error e

theorem imp {R' : α → β → Prop} {x : Except ε α} {y : Except ε β} (h : Corresponds R x y)
    (himp : ∀ a b, R a b → R' a b) : Corresponds R' x y := by
  cases h with
  | ok h => exact .ok (himp _ _ h)
  | error e => exact .error e

theorem ok_iff {x : Except ε α} {y : Except ε β} (h : Corresponds R x y) :
    ((∃ a, x = .ok a) ↔ ∃ b, y = .ok b) ∧ ∀ a b, x = .ok a → y = .ok b → R a b := by
  cases h with
  | ok h =>
    refine ⟨⟨fun _ => ⟨_, rfl⟩, fun _ => ⟨_, rfl⟩⟩, fun a b ha hb => ?_⟩
    cases ha
    cases hb
    exact h
  | error e => exact ⟨⟨nofun, nofun⟩, nofun⟩

end Corresponds

namespace Json

def items? : Json → Option (List Json)
  | .arr js => some js
  | _ => none

theorem eq_arr_of_bind_items? {x : Option Json} {js : List Json} (h : x.bind items? = some js) :
    x = some (.arr js) := by
  obtain ⟨j, rfl, hj⟩ := Option.bind_eq_some_iff.mp h
  cases j with
  | arr => exact congrArg (fun js => some (Json.arr js)) (Option.some.inj hj)
  | _ => exact nomatch hj

end Json

namespace Entries

variable {α : Type}

def replace (k : String) (v : α) (es : List (String × α)) : List (String × α) :=
  es.map (fun e => if e.1 = k then (k, v) else e)

end Entries

namespace Workflow

def others (js : List Json) (ns : List Node) : List Node :=
  ((js.zip ns).filter (fun p => !Node.isEditors p.1)).map Prod.snd

def without (js : List Json) (w : Workflow) : Workflow := { w with nodes := others js w.nodes }

def nodeItems? : Json → Option (List Json)
  | .obj ms => (Entries.get? ms "nodes").bind Json.items?
  | .arr ws => ws[3]?.bind Json.items?
  | _ => none

def withNodes (ks : List Json) : Json → Json
  | .obj ms => .obj (Entries.replace "nodes" (.arr ks) ms)
  | .arr ws => .arr (ws.set 3 (.arr ks))
  | j => j

/-- Decoded nodes, one for each value of two node lists: but for those of the editor the same. -/
structure SameOthers (js ks : List Json) (ns ms : List Node) : Prop where
  left : ns.length = js.length
  right : ms.length = ks.length
  others : others js ns = others ks ms

theorem items_others (o : Origin) {js : List Json} (hj : ∀ j ∈ js, j.Proper) :
    Corresponds (fun ns ms => ns.length = js.length ∧ others js ns = ms)
      (items Node.decode o (Doc.ofItems js))
      (items Node.decode o (Doc.ofItems (js.filter (fun j => !Node.isEditors j)))) := by
  induction js with
  | nil => exact .ok ⟨rfl, rfl⟩
  | cons j js ih =>
    obtain ⟨hhead, htail⟩ := List.forall_mem_cons.mp hj
    cases hed : Node.isEditors j with
    | true =>
      obtain ⟨n, hn⟩ := Node.decode_of_isEditors hhead hed o
      rw [List.filter_cons_of_neg (by simp [hed]), Doc.ofItems, items, hn]
      refine (ih htail).bind_left fun ns ms h => .ok ⟨congrArg Nat.succ h.1, ?_⟩
      simpa [others, hed] using h.2
    | false =>
      rw [List.filter_cons_of_pos (by simp [hed])]
      refine (Corresponds.refl (Node.decode o (Doc.ofJson j))).bind fun n m hnm => ?_
      refine (ih htail).bind fun ns ms h => .ok ⟨congrArg Nat.succ h.1, ?_⟩
      simpa [others, hed, hnm] using h.2

theorem list_others (o : Origin) {js ks : List Json} (hj : ∀ j ∈ js, j.Proper)
    (hk : ∀ k ∈ ks, k.Proper)
    (h : js.filter (fun j => !Node.isEditors j) = ks.filter (fun k => !Node.isEditors k)) :
    Corresponds (SameOthers js ks) (Decode.list Node.decode o (Doc.ofJson (.arr js)))
      (Decode.list Node.decode o (Doc.ofJson (.arr ks))) := by
  have hjs := items_others o hj
  rw [h] at hjs
  refine (hjs.join (items_others o hk)).bind fun ns ms hc => .ok ?_
  obtain ⟨c, ⟨hleft, hns⟩, ⟨hright, hms⟩⟩ := hc
  exact ⟨hleft, hright, hns.trans hms.symm⟩

structure SameWithout (js ks : List Json) (x y : Workflow) : Prop where
  left : x.nodes.length = js.length
  right : y.nodes.length = ks.length
  without : x.without js = y.without ks

structure SameBut (js ks : List Json) (r r' : Reading) : Prop where
  origin : r.origin = r'.origin
  lacking : r.lacking = r'.lacking
  slot : ∀ i name, i ≠ 3 → name ≠ "nodes" → r.slot i name = r'.slot i name
  nodes : ∃ p, r.slot 3 "nodes" = .here p (Doc.ofJson (.arr js)) ∧
    r'.slot 3 "nodes" = .here p (Doc.ofJson (.arr ks))

namespace SameBut

variable {js ks : List Json} {r r' : Reading}

theorem field_read {α : Type} (h : SameBut js ks r r') (default : Option α) {name : String}
    (f : Decoder α) {i : Nat} (hi : i ≠ 3) (hname : name ≠ "nodes") :
    Corresponds Eq ((Fields.field default name f).read r i)
      ((Fields.field default name f).read r' i) := by
  refine .of_eq ?_
  simp only [Fields.field, h.slot i name hi hname, h.origin, h.lacking]

theorem nodes_read (h : SameBut js ks r r') (hj : ∀ j ∈ js, j.Proper) (hk : ∀ k ∈ ks, k.Proper)
    (hothers : js.filter (fun j => !Node.isEditors j) = ks.filter (fun k => !Node.isEditors k)) :
    Corresponds (SameOthers js ks) ((Fields.required "nodes" (Decode.list Node.decode)).read r 3)
      ((Fields.required "nodes" (Decode.list Node.decode)).read r' 3) := by
  obtain ⟨p, hslot, hslot'⟩ := h.nodes
  simp only [Fields.required, Fields.field, hslot, hslot', ← h.origin]
  exact (list_others r.origin hj hk hothers).mapError _

end SameBut

theorem exists_fields {js ks : List Json} (hj : ∀ j ∈ js, j.Proper) (hk : ∀ k ∈ ks, k.Proper)
    (hothers : js.filter (fun j => !Node.isEditors j) = ks.filter (fun k => !Node.isEditors k)) :
    ∃ fs : Fields Workflow, decode = record "struct Workflow" fs ∧
      ∀ r r', SameBut js ks r r' →
        Corresponds (SameWithout js ks) (fs.read r 0) (fs.read r' 0) := by
  refine ⟨_, rfl, fun r r' h => ?_⟩
  have hbase : ∀ a b : String, a = b → ∀ c d : String, c = d → ∀ e f : String, e = f →
      ∀ ns ms : List Node, SameOthers js ks ns ms → ∀ g i : ModelChoice, g = i →
      ∀ t u : Bool, t = u → SameWithout js ks (mk a c e ns g t) (mk b d f ms i u) := by
    rintro a _ rfl c _ rfl e _ rfl ns ms hns g _ rfl t _ rfl
    exact ⟨hns.left, hns.right, by simp only [without, hns.others]⟩
  exact ((((((h.field_read none Decode.string (by decide) (by decide)).map hbase).both
    (h.field_read (some "") Decode.string (by decide) (by decide))).both
    (h.field_read (some "") Decode.string (by decide) (by decide))).both
    (h.nodes_read hj hk hothers)).both
    (h.field_read none ModelChoice.decode (by decide) (by decide))).both
    (h.field_read (some true) Decode.bool (by decide) (by decide))

theorem places_replace_of_ne {name k : String} (h : name ≠ k) (v : Json)
    (ms : List (String × Json)) :
    places name (Doc.ofMembers (Entries.replace k v ms)) = places name (Doc.ofMembers ms) := by
  rw [places_ofMembers, places_ofMembers, Entries.replace, List.zipIdx_map, List.filterMap_map]
  congr 1
  funext e
  by_cases he : e.1.1 = k
  · have hname : ¬ k = name := fun hk => h hk.symm
    simp [he, hname]
  · simp [he]

theorem places_replace (k : String) (v : Json) (ms : List (String × Json)) :
    places k (Doc.ofMembers (Entries.replace k v ms)) =
      (places k (Doc.ofMembers ms)).map (fun e => (e.1, Doc.ofJson v)) := by
  rw [places_ofMembers, places_ofMembers, Entries.replace, List.zipIdx_map, List.filterMap_map,
    List.map_filterMap]
  congr 1
  funext e
  by_cases he : e.1.1 = k <;> simp [he]

theorem sameBut_members (o : Origin) {js : List Json} (ks : List Json) {ms : List (String × Json)}
    (hsorted : Entries.Sorted ms) (h : Entries.get? ms "nodes" = some (.arr js)) :
    SameBut js ks (readingOfMembers o (Doc.ofMembers ms))
      (readingOfMembers o (Doc.ofMembers (Entries.replace "nodes" (.arr ks) ms))) where
  origin := rfl
  lacking := by simp [readingOfMembers, Doc.ofMembers_eq_map, Entries.replace]
  slot := by
    intro i name _ hname
    show slotOf _ = slotOf _
    rw [places_replace_of_ne hname]
  nodes := by
    obtain ⟨p, hp⟩ := places_of_sorted "nodes" hsorted
    rw [h] at hp
    refine ⟨p, ?_, ?_⟩
    · show slotOf (places "nodes" (Doc.ofMembers ms)) = _
      rw [hp]
      rfl
    · show slotOf (places "nodes" (Doc.ofMembers (Entries.replace "nodes" (.arr ks) ms))) = _
      rw [places_replace, hp]
      rfl

theorem sameBut_items (o : Origin) (expected : String) {js : List Json} (ks : List Json)
    {ws : List Json} (h : ws[3]? = some (.arr js)) :
    SameBut js ks (readingOfItems o expected (Doc.ofItems ws))
      (readingOfItems o expected (Doc.ofItems (ws.set 3 (.arr ks)))) where
  origin := rfl
  lacking := rfl
  slot := by
    intro i name hi _
    simp only [readingOfItems, Doc.ofItems_eq_map, List.getElem?_map,
      List.getElem?_set_ne (Ne.symm hi)]
  nodes := by
    obtain ⟨hlt, _⟩ := List.getElem?_eq_some_iff.mp h
    refine ⟨3, ?_, ?_⟩
    · simp [readingOfItems, Doc.ofItems_eq_map, h]
    · have hset : (Doc.ofItems (ws.set 3 (.arr ks)))[3]? = some (Doc.ofJson (.arr ks)) := by
        rw [Doc.ofItems_eq_map, List.getElem?_map, List.getElem?_set_self hlt]
        rfl
      simp only [readingOfItems, hset]

theorem decode_withNodes (o : Origin) {w : Json} {js ks : List Json} (hw : w.Proper)
    (hjs : nodeItems? w = some js) (hk : ∀ k ∈ ks, k.Proper)
    (hothers : js.filter (fun j => !Node.isEditors j) = ks.filter (fun k => !Node.isEditors k)) :
    Corresponds (SameWithout js ks) (decode o (Doc.ofJson w))
      (decode o (Doc.ofJson (withNodes ks w))) := by
  cases w with
  | obj ms =>
    obtain ⟨hsorted, hproper⟩ := Json.proper_obj.mp hw
    have hnodes : Entries.get? ms "nodes" = some (.arr js) := Json.eq_arr_of_bind_items? hjs
    have hj := Json.proper_arr.mp (hproper _ (Entries.mem_of_get?_eq_some hnodes))
    obtain ⟨fs, hfs, hsame⟩ := exists_fields hj hk hothers
    rw [hfs]
    show Corresponds _ (recordOfMembers o fs (Doc.ofMembers ms) none) (recordOfMembers o fs _ none)
    rw [recordOfMembers_ofMembers, recordOfMembers_ofMembers]
    exact (hsame _ _ (sameBut_members o ks hsorted hnodes)).mapError _
  | arr ws =>
    have hnodes : ws[3]? = some (.arr js) := Json.eq_arr_of_bind_items? hjs
    have hj := Json.proper_arr.mp (Json.proper_arr.mp hw _ (List.mem_of_getElem? hnodes))
    obtain ⟨fs, hfs, hsame⟩ := exists_fields hj hk hothers
    rw [hfs]
    show Corresponds _ (recordOfItems o _ fs (Doc.ofItems ws) none) (recordOfItems o _ fs _ none)
    rw [recordOfItems_ofItems, recordOfItems_ofItems]
    refine ((hsame _ _ (sameBut_items o _ ks hnodes)).mapError _).bind fun x y hxy => ?_
    have hlength : (Doc.ofItems (ws.set 3 (.arr ks))).length = (Doc.ofItems ws).length := by
      simp [Doc.ofItems_eq_map]
    rw [hlength]
    split
    · exact .error _
    · exact .ok hxy
  | _ => exact nomatch hjs

end Workflow

theorem Workflow.editor_nodes_inert :
    (∀ (j : Json) (id type : String), j.Proper → j.get? "id" = some (.str id) →
        j.get? "type" = some (.str type) →
      (type ∉ NodeKind.compiled → ∃ n, ofJson Node.decode j = .ok n ∧
        n.toJson = .obj [("id", .str id), ("type", .str type), ("data", Node.dataOf j)]) ∧
      (type ∈ NodeKind.compiled →
        ((∃ n, ofJson Node.decode j = .ok n) ↔ NodeKind.Fits (Node.dataOf j) type) ∧
        ∀ n, ofJson Node.decode j = .ok n → n.id = id ∧ n.typeName = type)) ∧
    ∀ (w : Json) (js ks : List Json), w.Proper → Workflow.nodeItems? w = some js →
        (∀ k ∈ ks, k.Proper) →
        js.filter (fun j => !Node.isEditors j) = ks.filter (fun k => !Node.isEditors k) →
      ((∃ x, ofJson Workflow.decode w = .ok x) ↔
        ∃ y, ofJson Workflow.decode (Workflow.withNodes ks w) = .ok y) ∧
      ∀ x y, ofJson Workflow.decode w = .ok x →
        ofJson Workflow.decode (Workflow.withNodes ks w) = .ok y →
        Workflow.SameWithout js ks x y := by
  refine ⟨fun j id type hj hid htype => ⟨fun ht => ?_, fun ht => ?_⟩,
    fun w js ks hw hjs hk hothers => (Workflow.decode_withNodes .value hw hjs hk hothers).ok_iff⟩
  · exact ⟨_, Node.decode_unknown hj hid htype ht, rfl⟩
  · have hnode (n : Node) (hn : ofJson Node.decode j = .ok n) :
        NodeKind.Fits (Node.dataOf j) type ∧ n.id = id ∧ n.typeName = type := by
      rw [ofJson, Node.decode_object hj hid htype] at hn
      obtain ⟨k, hk, rfl⟩ := map_eq_ok.mp hn
      obtain ⟨hfits, hname⟩ := NodeKind.fits_of_ofData ht hk
      exact ⟨hfits, rfl, hname⟩
    refine ⟨⟨fun ⟨n, hn⟩ => (hnode n hn).1, fun hfits => ?_⟩, fun n hn => (hnode n hn).2⟩
    obtain ⟨k, hk⟩ := NodeKind.ofData_of_fits hfits
    exact ⟨⟨id, k⟩, by rw [ofJson, Node.decode_object hj hid htype, hk]; rfl⟩

theorem Workflow.editor_nodes_inert_note :
    (∃ n, ofJson Node.decode (.obj [("id", .str "a"), ("type", .str "note")]) = .ok n ∧
      n.toJson = .obj [("id", .str "a"), ("type", .str "note"), ("data", .obj [])]) ∧
    ((∃ n, ofJson Node.decode (.obj [("id", .str "b"), ("type", .str "end")]) = .ok n) ↔
      NodeKind.Fits (.obj []) "end") ∧
    Node.typeName ⟨"b", .terminal ⟨.unset⟩⟩ = "end" ∧
    Workflow.SameWithout [.obj [("id", .str "a"), ("type", .str "note")]] []
      ⟨"w", "", "", [⟨"a", .unsupported "note" (.obj [])⟩], .unset, true⟩
      ⟨"w", "", "", [], .unset, true⟩ := by
  have hnote : (Json.obj [("id", .str "a"), ("type", .str "note")]).Proper :=
    Json.proper_obj.mpr ⟨by unfold Entries.Sorted; decide, by simp [Json.Proper]⟩
  have hend : (Json.obj [("id", .str "b"), ("type", .str "end")]).Proper :=
    Json.proper_obj.mpr ⟨by unfold Entries.Sorted; decide, by simp [Json.Proper]⟩
  have hnodes : (Json.arr [.obj [("id", .str "a"), ("type", .str "note")]]).Proper :=
    Json.proper_arr.mpr fun _ hj => List.mem_singleton.mp hj ▸ hnote
  have hempty : (Json.obj []).Proper := Json.proper_obj.mpr ⟨.nil, nofun⟩
  have hworkflow : (Json.obj [("default_llm", .obj []),
      ("nodes", .arr [.obj [("id", .str "a"), ("type", .str "note")]]),
      ("workflow_id", .str "w")]).Proper := by
    refine Json.proper_obj.mpr ⟨by unfold Entries.Sorted; decide, ?_⟩
    exact List.forall_mem_cons.mpr ⟨hempty,
      List.forall_mem_cons.mpr ⟨hnodes, by simp [Json.Proper]⟩⟩
  obtain ⟨hnode, hlist⟩ := Workflow.editor_nodes_inert
  obtain ⟨hfits, hname⟩ := (hnode _ "b" "end" hend rfl rfl).2 (by decide)
  exact ⟨(hnode _ "a" "note" hnote rfl rfl).1 (by decide), hfits,
    (hname ⟨"b", .terminal ⟨.unset⟩⟩ rfl).2,
    (hlist _ _ [] hworkflow rfl nofun (by decide)).2 _ _ rfl rfl⟩

end NodeRun
