import Mathlib.Data.List.Induction
import NodeRun.Model.Language
import NodeRun.Proofs.Wire.Nesting

namespace NodeRun

namespace CompletionRequest

structure Alike (r r' : CompletionRequest) : Prop where
  name : r.schema.name = r'.schema.name
  inputs : (Json.ofTable r.inputs).compact = (Json.ofTable r'.inputs).compact

instance (r r' : CompletionRequest) : Decidable (r.Alike r') :=
  decidable_of_iff (r.schema.name = r'.schema.name ∧
      (Json.ofTable r.inputs).compact = (Json.ofTable r'.inputs).compact)
    ⟨fun h => ⟨h.1, h.2⟩, fun h => ⟨h.name, h.inputs⟩⟩

def asked (r : CompletionRequest) : List String := r.schema.outputs.map SchemaSlot.name

def SameOutputs (r r' : CompletionRequest) : Prop := ∀ n, n ∈ r.asked ↔ n ∈ r'.asked

variable {r r' r'' : CompletionRequest}

theorem Alike.refl (r : CompletionRequest) : r.Alike r := ⟨rfl, rfl⟩

theorem Alike.symm (h : r.Alike r') : r'.Alike r := ⟨h.name.symm, h.inputs.symm⟩

theorem Alike.trans (h : r.Alike r') (h' : r'.Alike r'') : r.Alike r'' :=
  ⟨h.name.trans h'.name, h.inputs.trans h'.inputs⟩

end CompletionRequest

theorem Entries.get?_collect_map {α : Type} (f : String → α) (ns : List String) (k : String) :
    get? (collect (ns.map (fun n => (n, f n)))) k = if k ∈ ns then some (f k) else none := by
  suffices hacc : ∀ acc : List (String × α),
      get? ((ns.map (fun n => (n, f n))).foldl (fun acc e => insert e.1 e.2 acc) acc) k =
        if k ∈ ns then some (f k) else get? acc k from hacc []
  induction ns with
  | nil => exact fun _ => rfl
  | cons n ns ih =>
    intro acc
    rw [List.map_cons, List.foldl_cons, ih, get?_insert]
    by_cases hk : n = k
    · subst hk
      simp
    · simp [hk, Ne.symm hk]

namespace CannedModel

variable {m : CannedModel} {r r' : CompletionRequest}

theorem cacheKey_eq_iff : cacheKey r = cacheKey r' ↔ r.Alike r' := by
  have hkey (r : CompletionRequest) : (cacheKey r).toList =
      r.schema.name.toList ++ ':' :: Json.text (.obj r.inputs.entries) := by
    simp [cacheKey, Json.compact, Json.ofTable, String.toList_append, String.toList_ofList]
  constructor
  · intro h
    rw [← String.toList_inj, hkey, hkey] at h
    obtain ⟨hname, hinputs⟩ := Json.append_text_obj_inj h
    exact ⟨String.toList_inj.mp hname, congrArg String.ofList hinputs⟩
  · rintro ⟨hname, hinputs⟩
    rw [cacheKey, cacheKey, hname, hinputs]

theorem answer_of_fixed (h : m.outputs.isEmpty = false) (r r' : CompletionRequest) :
    m.answer r = m.answer r' := by
  simp [answer, h]

theorem get?_outputs_answer (h : m.outputs.isEmpty = true) (r : CompletionRequest) (n : String) :
    (m.answer r).outputs.get? n =
      if n ∈ r.asked then some (.str (n ++ " for " ++ (Json.ofTable r.inputs).compact))
      else none := by
  have hslots : r.schema.outputs.map (fun s => (s.name, slotAnswer r.inputs s)) =
      r.asked.map (fun n => (n, .str (n ++ " for " ++ (Json.ofTable r.inputs).compact))) := by
    simp [CompletionRequest.asked, slotAnswer]
  rw [answer, if_pos h, hslots]
  exact Entries.get?_collect_map _ _ _

theorem answer_eq_iff (h : r.Alike r') :
    m.answer r = m.answer r' ↔ m.outputs.isEmpty = false ∨ r.SameOutputs r' := by
  cases hm : m.outputs.isEmpty with
  | false => simp [answer_of_fixed hm r r']
  | true =>
    simp only [Bool.true_eq_false, false_or]
    constructor
    · intro heq n
      have hn := congrArg (fun c => (c.outputs.get? n).isSome) heq
      simp only [get?_outputs_answer hm] at hn
      split at hn <;> split at hn <;> simp_all
    · intro hsame
      have houtputs : (m.answer r).outputs = (m.answer r').outputs := by
        refine Table.ext_get? fun n => ?_
        rw [get?_outputs_answer hm, get?_outputs_answer hm, h.inputs]
        simp only [hsame n]
      exact congrArg (fun t => Completion.mk t (m.answer r').usage) houtputs

end CannedModel

structure ModelCall where
  request : CompletionRequest
  settings : InvocationSettings
  deriving DecidableEq, Repr

namespace ModelCall

/-- Once answered, the call has an answer kept that fits the request. -/
def Keeps (p : ModelCall) (r : CompletionRequest) : Prop :=
  p.settings.cacheEnabled = true ∧ p.request.Alike r

def Serves (p q : ModelCall) : Prop := q.settings.cacheEnabled = true ∧ p.Keeps q.request

instance (p : ModelCall) (r : CompletionRequest) : Decidable (p.Keeps r) :=
  inferInstanceAs (Decidable (_ ∧ _))

instance (p q : ModelCall) : Decidable (p.Serves q) := inferInstanceAs (Decidable (_ ∧ _))

def server? (earlier : List ModelCall) (q : ModelCall) : Option ModelCall :=
  earlier.find? (fun p => p.Serves q)

/-- The call whose answer a call gets after others: its own, when none serves it. -/
def origin (earlier : List ModelCall) (q : ModelCall) : ModelCall := (server? earlier q).getD q

def missed : List ModelCall → List ModelCall → Nat
  | _, [] => 0
  | earlier, q :: qs =>
    (if (server? earlier q).isSome then 0 else 1) + missed (earlier ++ [q]) qs

variable {o p q : ModelCall} {r : CompletionRequest} {cs : List ModelCall}

theorem missed_append (earlier cs ds : List ModelCall) :
    missed earlier (cs ++ ds) = missed earlier cs + missed (earlier ++ cs) ds := by
  induction cs generalizing earlier with
  | nil => simp [missed]
  | cons q cs ih => simp [missed, ih, Nat.add_assoc]

theorem missed_concat (cs : List ModelCall) (q : ModelCall) :
    missed [] (cs ++ [q]) = missed [] cs + if (server? cs q).isSome then 0 else 1 := by
  simp [missed_append, missed]

theorem server?_of_uncached (hq : q.settings.cacheEnabled = false) : server? cs q = none := by
  simp [server?, Serves, hq]

theorem server?_of_cached (hq : q.settings.cacheEnabled = true) :
    server? cs q = cs.find? (fun p => p.Keeps q.request) := by
  simp [server?, Serves, hq]

theorem Keeps.congr {r' : CompletionRequest} (h : r.Alike r') : p.Keeps r ↔ p.Keeps r' :=
  and_congr_right fun _ => ⟨fun hr => hr.trans h, fun hr => hr.trans h.symm⟩

theorem find?_keeps_congr {r' : CompletionRequest} (h : r.Alike r') (cs : List ModelCall) :
    cs.find? (fun p => p.Keeps r) = cs.find? (fun p => p.Keeps r') := by
  simp only [Keeps.congr h]

theorem find?_keeps_concat (cs : List ModelCall) (q : ModelCall) (r : CompletionRequest) :
    (cs ++ [q]).find? (fun p => p.Keeps r) =
      (cs.find? (fun p => p.Keeps r) <|> if q.Keeps r then some q else none) := by
  rw [List.find?_append, List.find?_singleton]
  simp

def Agrees (p q : ModelCall) : Prop := p.Serves q → p.request.SameOutputs q.request

theorem Serves.keeps (h : o.Serves q) (h' : p.Serves q) : o.Serves p :=
  ⟨h'.2.1, h.2.1, h.2.2.trans h'.2.2.symm⟩

theorem origin_alike (cs : List ModelCall) (q : ModelCall) :
    (q.origin cs).request.Alike q.request := by
  unfold origin
  cases ho : q.server? cs with
  | none => exact .refl _
  | some o =>
    have hserves : o.Serves q := by simpa using List.find?_some ho
    exact hserves.2.2

theorem sameOutputs_origin_iff (h : cs.Pairwise Agrees) (q : ModelCall) :
    (q.origin cs).request.SameOutputs q.request ↔ ∀ p ∈ cs, p.Agrees q := by
  unfold origin
  cases ho : q.server? cs with
  | none =>
    refine iff_of_true (fun n => Iff.rfl) fun p hp hserves => ?_
    exact absurd hserves (by simpa using List.find?_eq_none.mp ho p hp)
  | some o =>
    obtain ⟨hserves, as, bs, rfl, has⟩ := List.find?_eq_some_iff_append.mp ho
    replace hserves : o.Serves q := by simpa using hserves
    constructor
    · intro hsame p hp hq
      rcases List.mem_append.mp hp with hp | hp
      · exact absurd hq (by simpa using has p hp)
      · rcases List.mem_cons.mp hp with rfl | hp
        · exact hsame
        · -- The first server of the call serves this one too, which came after it.
          have hop := List.rel_of_pairwise_cons (List.pairwise_append.mp h).2.1 hp
          exact fun n => (hop (hserves.keeps hq) n).symm.trans (hsame n)
    · intro hagrees
      exact hagrees o (by simp) hserves

end ModelCall

namespace LanguageModel

def call (m : LanguageModel) (q : ModelCall) : Reply Completion × LanguageModel :=
  m.complete q.request q.settings

def run (m : LanguageModel) : List ModelCall → List (Reply Completion) × LanguageModel
  | [] => ([], m)
  | q :: qs =>
    let (reply, m) := m.call q
    let (replies, m) := m.run qs
    (reply :: replies, m)

variable {m : LanguageModel} {c : CannedModel} {cs : List ModelCall} {q : ModelCall}

theorem run_concat (m : LanguageModel) (cs : List ModelCall) (q : ModelCall) :
    m.run (cs ++ [q]) =
      ((m.run cs).1 ++ [((m.run cs).2.call q).1], ((m.run cs).2.call q).2) := by
  induction cs generalizing m with
  | nil => rfl
  | cons p cs ih => simp only [List.cons_append, run, ih]

theorem call_uncached (hm : m.source = .canned c) (hc : c.failure = none)
    (hq : q.settings.cacheEnabled = false) :
    m.call q = (.ok (c.answer q.request), { m with calls := m.calls + 1 }) := by
  simp [call, complete, ask, cached?, resolve, answer, hm, hc, hq]

theorem call_kept (hm : m.source = .canned c) (hq : q.settings.cacheEnabled = true)
    {a : Completion} (ha : m.cache.get? (CannedModel.cacheKey q.request) = some a) :
    m.call q = (.ok a, m) := by
  simp [call, complete, ask, cached?, resolve, hm, hq, ha]

theorem call_unkept (hm : m.source = .canned c) (hc : c.failure = none)
    (hq : q.settings.cacheEnabled = true)
    (ha : m.cache.get? (CannedModel.cacheKey q.request) = none) :
    m.call q =
      (.ok (c.answer q.request),
        { m with
          calls := m.calls + 1
          cache := m.cache.insert (CannedModel.cacheKey q.request) (c.answer q.request) }) := by
  simp [call, complete, ask, cached?, resolve, answer, hm, hc, hq, ha]

structure Holds (c : CannedModel) (cs : List ModelCall) (m : LanguageModel) : Prop where
  source : m.source = .canned c
  calls : m.calls = ModelCall.missed [] cs
  cache : ∀ r, m.cache.get? (CannedModel.cacheKey r) =
    (cs.find? (fun p => p.Keeps r)).map (fun p => c.answer p.request)

theorem holds_ofSource (c : CannedModel) : Holds c [] (ofSource (.canned c)) where
  source := rfl
  calls := rfl
  cache _ := rfl

theorem Holds.uncached (h : Holds c cs m) (hq : q.settings.cacheEnabled = false) :
    Holds c (cs ++ [q]) { m with calls := m.calls + 1 } := by
  refine ⟨h.source, ?_, fun r => ?_⟩
  · rw [ModelCall.missed_concat, ModelCall.server?_of_uncached hq, ← h.calls]
    rfl
  · have hkeeps : ¬ q.Keeps r := fun hk => absurd (hq.symm.trans hk.1) Bool.false_ne_true
    rw [ModelCall.find?_keeps_concat, if_neg hkeeps, h.cache]
    simp

theorem Holds.kept (h : Holds c cs m) (hq : q.settings.cacheEnabled = true) {o : ModelCall}
    (ho : q.server? cs = some o) : Holds c (cs ++ [q]) m := by
  refine ⟨h.source, ?_, fun r => ?_⟩
  · rw [ModelCall.missed_concat, ho, ← h.calls]
    rfl
  · rw [ModelCall.find?_keeps_concat, h.cache]
    split
    · rename_i hk
      rw [ModelCall.server?_of_cached hq, ModelCall.find?_keeps_congr hk.2] at ho
      rw [ho]
      rfl
    · simp

theorem Holds.unkept (h : Holds c cs m) (hq : q.settings.cacheEnabled = true)
    (ho : q.server? cs = none) :
    Holds c (cs ++ [q])
      { m with
        calls := m.calls + 1
        cache := m.cache.insert (CannedModel.cacheKey q.request) (c.answer q.request) } := by
  refine ⟨h.source, ?_, fun r => ?_⟩
  · rw [ModelCall.missed_concat, ho, ← h.calls]
    rfl
  · have hkey : CannedModel.cacheKey q.request = CannedModel.cacheKey r ↔ q.request.Alike r :=
      CannedModel.cacheKey_eq_iff
    rw [ModelCall.find?_keeps_concat, Table.get?_insert]
    by_cases hr : q.request.Alike r
    · rw [ModelCall.server?_of_cached hq, ModelCall.find?_keeps_congr hr] at ho
      rw [if_pos (hkey.mpr hr), if_pos ⟨hq, hr⟩, ho]
      rfl
    · rw [if_neg fun hk => hr (hkey.mp hk), if_neg fun hk => hr hk.2, h.cache]
      simp

theorem Holds.call (h : Holds c cs m) (hc : c.failure = none) (q : ModelCall) :
    (m.call q).1 = .ok (c.answer (q.origin cs).request) ∧ Holds c (cs ++ [q]) (m.call q).2 := by
  cases hq : q.settings.cacheEnabled with
  | false =>
    rw [call_uncached h.source hc hq, ModelCall.origin, ModelCall.server?_of_uncached hq]
    exact ⟨rfl, h.uncached hq⟩
  | true =>
    have hcache := h.cache q.request
    rw [← ModelCall.server?_of_cached hq] at hcache
    rw [ModelCall.origin]
    cases ho : q.server? cs with
    | some o =>
      rw [ho] at hcache
      rw [call_kept h.source hq hcache]
      exact ⟨rfl, h.kept hq ho⟩
    | none =>
      rw [ho] at hcache
      rw [call_unkept h.source hc hq hcache]
      exact ⟨rfl, h.unkept hq ho⟩

theorem holds_run (hc : c.failure = none) (cs : List ModelCall) :
    Holds c cs ((ofSource (.canned c)).run cs).2 := by
  induction cs using List.reverseRecOn with
  | nil => exact holds_ofSource c
  | append_singleton cs q ih =>
    rw [run_concat]
    exact (ih.call hc q).2

theorem reply_run (hc : c.failure = none) (cs : List ModelCall) (q : ModelCall) :
    (((ofSource (.canned c)).run cs).2.call q).1 = .ok (c.answer (q.origin cs).request) :=
  ((holds_run hc cs).call hc q).1

theorem calls_run (hc : c.failure = none) (cs : List ModelCall) :
    ((ofSource (.canned c)).run cs).2.calls = ModelCall.missed [] cs :=
  (holds_run hc cs).calls

theorem run_eq_answers_iff (hc : c.failure = none) (cs : List ModelCall) :
    ((ofSource (.canned c)).run cs).1 = cs.map (fun q => .ok (c.answer q.request)) ↔
      c.outputs.isEmpty = false ∨ cs.Pairwise ModelCall.Agrees := by
  induction cs using List.reverseRecOn with
  | nil => simp [run]
  | append_singleton cs q ih =>
    -- One more call keeps the earlier replies, and its own is the answer to its origin.
    have hconcat : ((ofSource (.canned c)).run (cs ++ [q])).1 =
        (cs ++ [q]).map (fun q => .ok (c.answer q.request)) ↔
          ((ofSource (.canned c)).run cs).1 = cs.map (fun q => .ok (c.answer q.request)) ∧
            c.answer (q.origin cs).request = c.answer q.request := by
      rw [run_concat, reply_run hc, List.map_append]
      exact ⟨fun h => ⟨List.append_inj_left' h rfl, by simpa using List.append_inj_right' h rfl⟩,
        fun h => by rw [h.1, h.2]; rfl⟩
    rw [hconcat, ih, CannedModel.answer_eq_iff (ModelCall.origin_alike cs q),
      List.pairwise_append]
    cases c.outputs.isEmpty with
    | false => simp
    | true =>
      simp only [Bool.true_eq_false, false_or, List.pairwise_singleton, true_and,
        List.mem_singleton, forall_eq]
      exact and_congr_right fun h => ModelCall.sameOutputs_origin_iff h q

/-- Two schemas of one name: the second call gets an answer to the first. -/
example :
    let call (output : String) : ModelCall :=
      ⟨⟨⟨"S", none, [], [⟨output, .str, .output, none, false⟩]⟩, ∅, []⟩, .standard⟩
    let c := CannedModel.named "m"
    ((ofSource (.canned c)).run [call "a", call "b"]).1 =
        [.ok (c.answer (call "a").request), .ok (c.answer (call "a").request)] ∧
      c.answer (call "a").request ≠ c.answer (call "b").request := by decide

theorem run_eq_answers (hc : c.failure = none)
    (h : ∀ p ∈ cs, ∀ q ∈ cs, p.request.schema.name = q.request.schema.name →
      p.request.SameOutputs q.request) :
    ((ofSource (.canned c)).run cs).1 = cs.map (fun q => .ok (c.answer q.request)) := by
  refine (run_eq_answers_iff hc cs).mpr (.inr ?_)
  refine List.pairwise_of_forall_mem_list fun p hp q hq hserves => ?_
  exact h p hp q hq hserves.2.2.name

end LanguageModel

end NodeRun
