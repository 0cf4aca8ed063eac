import NodeRun.Proofs.Ambiguity
import NodeRun.Proofs.Coercion.Fields
import NodeRun.Proofs.Spans

namespace NodeRun

open Scalar Text

theorem Settings.count?_eq_some_iff {settings : Settings} {i : String} {k : Nat} :
    Settings.count? settings i = some k ↔ settings.get? i = some (.int k) := by
  unfold Settings.count?
  split
  · rename_i n hn
    rw [hn, Option.some.injEq, Json.int.injEq]
    split
    · rw [Option.some.injEq]
      omega
    · simp only [reduceCtorEq, false_iff]
      omega
  · rename_i hn
    simp only [reduceCtorEq, false_iff]
    exact hn _

namespace Field

variable {fs : List Field} {f : Field} {settings : Settings} {i s : String} {k : Nat}

def Denotes (f : Field) (k : Int) : Prop :=
  ∃ s cs, f.rawDefault = some s ∧ Trims s.toList cs ∧ Numeral cs k

structure Configures (f : Field) (k : Nat) : Prop where
  type : f.type = .int
  number : f.Denotes k

theorem Denotes.unique {k k' : Int} (h : f.Denotes k) (h' : f.Denotes k') : k = k' := by
  obtain ⟨s, cs, hs, htrim, hnum⟩ := h
  obtain ⟨s', cs', hs', htrim', hnum'⟩ := h'
  cases hs.symm.trans hs'
  have hcs : cs = cs' := htrim.trimmed_eq.symm.trans htrim'.trimmed_eq
  subst hcs
  rw [(numeral_iff.mp hnum).2, (numeral_iff.mp hnum').2]

theorem autoparse_of_coerceAll (h : coerceAll fs = .ok settings) :
    (fs.map identifier).Nodup ∧ autoparse fs (parseAll fs) = .ok settings := by
  have hnodup := nodup_of_coerceAll h
  refine ⟨hnodup, ?_⟩
  rw [coerceAll, repeated?_eq_none_iff.mpr hnodup] at h
  rwa [autoparse, ← coerceOnto_eq_autoparseOnto fun f hf => get?_parseAll hnodup hf]

theorem lastNamed_of_nodup (h : (fs.map identifier).Nodup) (hf : f ∈ fs) : LastNamed fs f := by
  induction fs with
  | nil => cases hf
  | cons g fs ih =>
    obtain ⟨hg, hfs⟩ := List.nodup_cons.mp h
    rcases List.mem_cons.mp hf with rfl | hf
    · exact ⟨[], fs, rfl, fun x hx hname => hg (List.mem_map.mpr ⟨x, hx, hname⟩)⟩
    · obtain ⟨before, after, rfl, hafter⟩ := ih hfs hf
      exact ⟨g :: before, after, rfl, hafter⟩

theorem get?_coerceAll (h : coerceAll fs = .ok settings) (hf : f ∈ fs)
    (hs : f.rawDefault = some s) :
    ∃ v, Says s f.type v ∧ settings.get? f.identifier = some v.toJson := by
  obtain ⟨hnodup, hparsed⟩ := autoparse_of_coerceAll h
  have hgiven : f.given (parseAll fs) = some s := (given_parseAll hnodup hf).trans hs
  exact get?_autoparseOnto_last hparsed (lastNamed_of_nodup hnodup hf) hgiven

theorem get?_coerceAll_of_absent (h : coerceAll fs = .ok settings)
    (hi : ∀ f ∈ fs, f.identifier = i → f.rawDefault = none) : settings.get? i = none := by
  obtain ⟨hnodup, hparsed⟩ := autoparse_of_coerceAll h
  rw [get?_autoparseOnto_of_absent hparsed fun f hf hname =>
    (given_parseAll hnodup hf).trans (hi f hf hname)]
  rfl

theorem denotes_of_says {v : FieldValue} (hs : f.rawDefault = some s) (hv : Says s f.type v)
    (ht : f.type = .int) : ∃ n : Int64, v = .int n ∧ f.Denotes n.toInt := by
  rw [ht] at hv
  cases hv with
  | int htrim hnum => exact ⟨_, rfl, s, _, hs, htrim, hnum⟩
  | text h => cases h

theorem denotes_of_coerceAll (h : coerceAll fs = .ok settings) (hf : f ∈ fs)
    (hs : f.rawDefault = some s) (ht : f.type = .int) : ∃ k, f.Denotes k := by
  obtain ⟨v, hv, -⟩ := get?_coerceAll h hf hs
  obtain ⟨n, -, hn⟩ := denotes_of_says hs hv ht
  exact ⟨_, hn⟩

theorem Typed.type_eq_int {type : FieldType} {n : Int} (h : Typed s type (.int n)) :
    type = .int := by
  cases h
  rfl

theorem count?_coerceAll_iff (h : coerceAll fs = .ok settings) :
    Settings.count? settings i = some k ↔ ∃ f ∈ fs, f.identifier = i ∧ f.Configures k := by
  rw [Settings.count?_eq_some_iff]
  constructor
  · intro hk
    have hgiven : ∃ f ∈ fs, f.identifier = i ∧ f.rawDefault ≠ none := by
      by_contra hnone
      push Not at hnone
      cases hk.symm.trans (get?_coerceAll_of_absent h hnone)
    obtain ⟨f, hf, rfl, hdefault⟩ := hgiven
    obtain ⟨s, hs⟩ := Option.ne_none_iff_exists'.mp hdefault
    obtain ⟨v, hv, hget⟩ := get?_coerceAll h hf hs
    -- Of the scalars only an integer is written as one, so the type of the field is known.
    have hjson : v.toJson = .int k := Option.some.inj (hget.symm.trans hk)
    have htype : f.type = .int := (hjson ▸ says_typed hv).type_eq_int
    obtain ⟨n, rfl, hn⟩ := denotes_of_says hs hv htype
    exact ⟨f, hf, rfl, htype, Json.int.inj hjson ▸ hn⟩
  · rintro ⟨f, hf, rfl, htype, s, cs, hs, hnum⟩
    obtain ⟨v, hv, hget⟩ := get?_coerceAll h hf hs
    obtain ⟨n, rfl, hn⟩ := denotes_of_says hs hv htype
    rw [hget, FieldValue.toJson, hn.unique ⟨s, cs, hs, hnum⟩]

end Field

namespace Retriever

def Configures (r : Retriever) (k : Nat) : Prop :=
  ∃ f ∈ r.component.parameterFields, f.identifier = "k" ∧ f.Configures k

end Retriever

namespace ContextsRetriever

structure Retrieves (x : ContextsRetriever) (settings : InvocationSettings) (inputs : Table Json)
    (f : Forwarded) : Prop where
  unasked : ∀ e, query inputs = .error e → f.effects = [] ∧ f.result = .error e
  asked : ∀ q, query inputs = .ok q →
    f.effects = [.passagesWanted x.backend.recorded q x.k settings]
  fetched : ∀ q, query inputs = .ok q → ∀ p, f.result = .ok p ↔
    ∃ ps, x.backend.reply q x.k settings = .ok ps ∧
      p = .ofOutputs (Table.empty.insert "contexts" (.arr (ps.map fun y => .str y.content)))

end ContextsRetriever

namespace Module

open Pending

theorem settle_finishContexts {c : InvocationContext} {m : Moment} {r : ContextsRetriever}
    {q : String} {reply : Reply (List Passage)} {p : Prediction} :
    (settle reply (finishContexts c m r q)).1 = .ok p ↔
      ∃ ps, reply = .ok ps ∧ p = .ofOutputs (ContextsRetriever.outputs ps) := by
  cases reply with
  | ok ps =>
    constructor
    · rintro ⟨⟩
      exact ⟨ps, rfl, rfl⟩
    · rintro ⟨ps', ⟨⟩, rfl⟩
      rfl
  | error e => exact ⟨nofun, by rintro ⟨ps, ⟨⟩, -⟩⟩
  | panic m => exact ⟨nofun, by rintro ⟨ps, ⟨⟩, -⟩⟩

theorem retrieves_forwardAt (x : ContextsRetriever) (c : InvocationContext)
    (asked answered : Moment) (models later : List LanguageModel) (inputs : Table Json) :
    x.Retrieves c.settings inputs
      (forwardAt c asked answered models later (.contexts x) inputs) := by
  refine ⟨fun e he => ?_, fun q hq => ?_, fun q hq p => ?_⟩
  · rw [forwardAt_unasked c asked answered models later inputs he]
    exact ⟨rfl, rfl⟩
  · simp only [forwardAt, Invocation.begin, hq]
  · obtain ⟨-, hends⟩ := forwardAt_contexts c asked answered models later inputs hq x
    obtain ⟨hresult, -⟩ := Prod.ext_iff.mp hends
    dsimp only at hresult
    rw [hresult]
    exact settle_finishContexts

theorem retrieves_forward (x : ContextsRetriever) (c : InvocationContext) (m : Moment)
    (models : List LanguageModel) (inputs : Table Json) :
    x.Retrieves c.settings inputs ((contexts x).forward c m models inputs) := by
  obtain ⟨answered, later, heq⟩ := forward_eq_forwardAt c m models (.contexts x) inputs
  rw [heq]
  exact retrieves_forwardAt x c m answered models later inputs

end Module

namespace Compiler

open ContextsRetriever

variable {c : Compiler} {w : Workflow} {n : Node} {r : Retriever} {m : Module}

theorem compile_retriever (hk : n.kind = .retriever r) (hm : (c.compile n w).1 = .ok m) :
    ∃ cls b settings, Field.coerceAll r.component.parameterFields = .ok settings ∧
      m = .contexts (.new (r.component.name.getD cls) b settings) := by
  rcases (c.compiles w n.kind).calls_of_ok hm with ⟨-, hmade⟩ | ⟨call, -, hasked⟩
  · rw [hk] at hmade
    cases hmade
  · rw [hk] at hasked
    generalize hreply : Reply.ok m = reply at hasked
    cases hasked with
    | factory hn hf hs =>
      obtain ⟨b, -, hb⟩ := Reply.map_eq_ok_iff.mp hreply.symm
      exact ⟨_, b, _, hs, hb.symm⟩

theorem compile_counted (c : Compiler) (w : Workflow) (n : Node) (r : Retriever)
    (hk : n.kind = .retriever r) (m : Module) (hm : (c.compile n w).1 = .ok m) :
    (∀ f ∈ r.component.parameterFields, f.identifier = "k" → f.rawDefault ≠ none →
      f.type = .int → ∃ k, f.Denotes k) ∧
    ∃ x, m = .contexts x ∧ (∀ k, r.Configures k → x.k = k) ∧
      ((∀ k, ¬ r.Configures k) → x.k = standardCount) ∧
      (∀ ctx asked answered models later inputs,
        x.Retrieves ctx.settings inputs
          ((Module.contexts x).forwardAt ctx asked answered models later inputs)) ∧
      ∀ ctx asked models inputs,
        x.Retrieves ctx.settings inputs ((Module.contexts x).forward ctx asked models inputs) := by
  obtain ⟨cls, b, settings, hs, rfl⟩ := compile_retriever hk hm
  refine ⟨fun f hf _ hdefault ht => ?_, _, rfl, fun k hr => ?_, fun hnone => ?_,
    Module.retrieves_forwardAt _, Module.retrieves_forward _⟩
  · obtain ⟨s, hs'⟩ := Option.ne_none_iff_exists'.mp hdefault
    exact Field.denotes_of_coerceAll hs hf hs' ht
  · rw [ContextsRetriever.new, (Field.count?_coerceAll_iff hs).mpr hr, Option.getD_some]
  · have hcount : Settings.count? settings "k" = none :=
      Option.eq_none_iff_forall_ne_some.mpr fun k hk =>
        hnone k ((Field.count?_coerceAll_iff hs).mp hk)
    rw [ContextsRetriever.new, hcount, Option.getD_none]

def stocked (passages : List Passage) : Compiler :=
  { provider := fun _ => .error (.tracing "down")
    retrievers := .ofList [("R", fun _ => .ok (.fixed passages))]
    evaluators := ∅
    evaluation := none }

def counter (type : FieldType) (s : String) : Field :=
  { Field.named "k" type with defaultValue := some s }

def counting (f : Field) : Retriever :=
  ⟨{ Component.unset with parameters := some [f] }, some "R"⟩

def queried : Table Json := .ofList [("query", .str "q")]

theorem denotes_counter {type : FieldType} {s : String} {k : Int} (hs : s ≠ "")
    (h : readInteger (trimmed s.toList) = .ok k) : (counter type s).Denotes k := by
  refine ⟨s, _, ?_, trims_trimmed _, (readInteger_eq_ok_iff.mp h).1⟩
  simp [counter, Field.rawDefault, hs]

theorem compile_counted_padded :
    let c := stocked [⟨"a", none⟩, ⟨"b", none⟩]
    let n : Node := ⟨"r", .retriever (counting (counter .int " 1 "))⟩
    ∃ x, (c.compile n (.new "w" (.named "m"))).1 = .ok (.contexts x) ∧
      ∀ ctx m models, ∃ p, ((Module.contexts x).forward ctx m models queried).result = .ok p ∧
        p.outputs = .ofList [("contexts", .arr [.str "a"])] ∧
        ((Module.contexts x).forward ctx m models queried).effects =
          [.passagesWanted false "q" 1 ctx.settings] := by
  intro c n
  obtain ⟨m, hm⟩ : ∃ m, (c.compile n (.new "w" (.named "m"))).1 = .ok m := ⟨_, rfl⟩
  obtain ⟨-, x, rfl, hcount, -, -, hruns⟩ := compile_counted c _ n _ rfl m hm
  have hk : x.k = 1 := by
    refine hcount 1 ⟨_, List.mem_cons_self, rfl, rfl, denotes_counter (by decide) ?_⟩
    rfl
  refine ⟨x, hm, fun ctx m models => ?_⟩
  have hrun := hruns ctx m models queried
  have heffects := hrun.asked "q" rfl
  have hresult := (hrun.fetched "q" rfl _).mpr ⟨[⟨"a", none⟩], ?_, rfl⟩
  · rw [hk] at heffects
    cases hm
    exact ⟨_, hresult, rfl, heffects⟩
  · rw [hk]
    cases hm
    rfl

/-- Fields that configure no number, though one is denoted, and for which a retriever asks for the
standard number. -/
theorem compile_uncounted :
    let asked (f : Field) : Option (List Effect) :=
      match ((stocked []).compile ⟨"r", .retriever (counting f)⟩ (.new "w" (.named "m"))).1 with
      | .ok m => some (m.forward Module.traced ⟨0, 0⟩ [] queried).effects
      | _ => none
    (counter .str "7").Denotes 7 ∧
      asked (counter .str "7") = some [.passagesWanted false "q" 3 Module.traced.settings] ∧
      (counter .int "-1").Denotes (-1) ∧
      asked (counter .int "-1") = some [.passagesWanted false "q" 3 Module.traced.settings] := by
  intro asked
  exact ⟨denotes_counter (by decide) rfl, rfl, denotes_counter (by decide) rfl, rfl⟩

end Compiler

end NodeRun
