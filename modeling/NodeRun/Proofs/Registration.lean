import Mathlib.Data.Set.Card
import NodeRun.Proofs.Run

namespace NodeRun

def Step.registers (e : Step) : Bool :=
  match e.action with
  | .handle (.execute _) => true
  | _ => false

namespace Served

theorem isLive_iff {x : Served} (h : x.isRegistered = true) :
    x.isLive = true ↔ ∃ n, x.front.generation? = some n := by
  obtain ⟨execution, front, cancelled⟩ := x
  cases front <;> simp_all [isLive, isRegistered, Front.generation?]

theorem isLive_eq_of_front {x x' : Served} (h : x.isRegistered = true)
    (hf : x'.front = x.front) : x'.isLive = x.isLive := by
  have h' : x'.isRegistered = true := by simpa [isRegistered, hf] using h
  rw [Bool.eq_iff_iff, isLive_iff h, isLive_iff h', hf]

theorem isRegistered_of_generation? {x : Served} {n : UInt64} (h : x.front.generation? = some n) :
    x.isRegistered = true := by
  obtain ⟨execution, front, cancelled⟩ := x
  cases front <;> simp_all [isRegistered, Front.generation?]

end Served

namespace Table

variable {α : Type}

theorem nodup_keys (t : Table α) : t.keys.Nodup := by
  refine List.Pairwise.map _ ?_ t.sorted
  intro a b h hab
  exact String.lt_irrefl _ (hab ▸ h)

theorem size_eq_ncard (t : Table α) : t.size = {k | ∃ v, t.get? k = some v}.ncard := by
  have h : {k | ∃ v, t.get? k = some v} = (t.keys.toFinset : Set String) := by
    ext k
    simp [← mem_keys_iff]
  rw [h, Set.ncard_coe_finset, List.toFinset_card_of_nodup t.nodup_keys]
  simp [size, keys]

end Table

namespace Running

@[simp] theorem get?_register (r : Running) (trace node : String) (execution : Nat) (t : String) :
    (r.register trace node execution).get? t =
      if trace = t then some ⟨node, execution, r.next⟩ else r.get? t :=
  Table.get?_insert _ _ _ _

@[simp] theorem next_release (r : Running) (trace : String) (generation : UInt64) :
    (r.release trace generation).next = r.next := by
  unfold release
  split
  · split <;> rfl
  · rfl

theorem get?_release {r : Running} {trace t : String} {generation : UInt64} {e : Registration} :
    (r.release trace generation).get? t = some e ↔
      r.get? t = some e ∧ (t = trace → e.generation ≠ generation) := by
  unfold release
  cases hx : r.get? trace with
  | none =>
    refine ⟨fun h => ⟨h, ?_⟩, And.left⟩
    rintro rfl
    simp [hx] at h
  | some x =>
    simp only
    split
    · rename_i hg
      simp only [get?, Table.get?_erase] at hx ⊢
      split
      · rename_i ht
        subst ht
        simp only [hx, reduceCtorEq, Option.some.injEq, false_iff, not_and]
        rintro rfl h
        exact h trivial hg
      · rename_i ht
        exact ⟨fun h => ⟨h, fun h' => absurd h'.symm ht⟩, And.left⟩
    · rename_i hg
      refine ⟨fun h => ⟨h, ?_⟩, And.left⟩
      rintro rfl
      rw [hx] at h
      cases h
      exact hg

theorem release_eq_self {r : Running} {trace : String} {generation : UInt64}
    (h : ∀ e, r.get? trace = some e → e.generation ≠ generation) :
    r.release trace generation = r := by
  unfold release
  split
  · rename_i x hx
    rw [if_neg (h x hx)]
  · rfl

end Running

namespace Service

structure Latest (s : Service) (trace : String) (id : Nat) (x : Served) : Prop where
  entry : s.served[id]? = some x
  registered : x.isRegistered = true
  trace_eq : x.traceId = trace
  last : ∀ {j : Nat} {y : Served}, s.served[j]? = some y → y.isRegistered = true →
    y.traceId = trace → j ≤ id

theorem Latest.unique {s : Service} {trace : String} {i j : Nat} {x y : Served}
    (h : s.Latest trace i x) (h' : s.Latest trace j y) : i = j ∧ x = y := by
  have hij : i = j :=
    Nat.le_antisymm (h'.last h.entry h.registered h.trace_eq)
      (h.last h'.entry h'.registered h'.trace_eq)
  subst hij
  exact ⟨rfl, Option.some.inj (h.entry.symm.trans h'.entry)⟩

theorem latest_or_superseded {s : Service} {i : Nat} {x : Served} (hx : s.served[i]? = some x)
    (hr : x.isRegistered = true) :
    s.Latest x.traceId i x ∨
      ∃ j y, i < j ∧ s.served[j]? = some y ∧ y.isRegistered = true ∧ y.traceId = x.traceId := by
  by_cases h : ∃ j y, i < j ∧ s.served[j]? = some y ∧ y.isRegistered = true ∧
      y.traceId = x.traceId
  · exact .inr h
  · refine .inl ⟨hx, hr, rfl, ?_⟩
    intro j y hy hyr ht
    by_contra hj
    exact h ⟨j, y, by omega, hy, hyr, ht⟩

theorem generation_eq {s : Service} {e : Step} {id : Nat} {x x' : Served}
    (hx : s.served[id]? = some x) (hx' : (s.act e).served[id]? = some x')
    (hs : e.action.subject? ≠ some id) : x'.front.generation? = x.front.generation? := by
  obtain rfl := Option.some.inj ((act_other hx hs).symm.trans hx')
  rfl

theorem Feeds.books {s s' : Service} {id : Nat} {x x' : Served} {shown : Polled}
    (h : Feeds s id x shown x' s') :
    (s'.running = s.running ∧ x'.front.generation? = x.front.generation?) ∨
      ∃ n, x.front.generation? = some n ∧ x'.front.generation? = none ∧
        s'.running = s.running.release x.traceId n := by
  cases h with
  | closed => exact .inl ⟨rfl, rfl⟩
  | finished hf => exact .inr ⟨_, by rw [hf]; rfl, rfl, by simp [closeFeed, hf, Front.generation?]⟩
  | reported hf => exact .inl ⟨rfl, by rw [hf]; rfl⟩
  | direct hf => exact .inl ⟨rfl, rfl⟩
  | silenced hf hp =>
    refine .inr ⟨_, by rw [hf]; rfl, rfl, ?_⟩
    simp [closeFeed, hf, Front.generation?, Served.traceId, request_of_poll hp]
  | failed hf => exact .inl ⟨rfl, by rw [hf]; rfl⟩
  | ended hf => exact .inl ⟨rfl, by rw [hf]; rfl⟩
  | shown => exact .inl ⟨rfl, rfl⟩
  | pending => exact .inl ⟨rfl, rfl⟩

inductive Books (s : Service) (e : Step) : Running → Prop where
  | kept (hr : e.registers = false)
    (hg : ∀ {id : Nat} {x x' : Served}, s.served[id]? = some x →
      (s.act e).served[id]? = some x' → x'.front.generation? = x.front.generation?) :
    Books s e s.running
  | released {i : Nat} {y : Served} {n : UInt64} (hr : e.registers = false)
    (hi : e.action.subject? = some i) (hy : s.served[i]? = some y)
    (hn : y.front.generation? = some n)
    (hg : ∀ {x' : Served}, (s.act e).served[i]? = some x' → x'.front.generation? = none) :
    Books s e (s.running.release y.traceId n)
  | registered {r : ExecuteRequest} (h : e.action = .handle (.execute r)) :
    Books s e (s.running.register r.traceId r.nodeId s.served.length)

theorem moves_books {s : Service} {e : Step} {i : Nat} {y y' : Served} (hm : Moves s e i y y')
    (hi : e.action.subject? = some i) (hy : s.served[i]? = some y) :
    ((s.act e).running = s.running ∧ y'.front.generation? = y.front.generation?) ∨
      ∃ n, y.front.generation? = some n ∧ y'.front.generation? = none ∧
        (s.act e).running = s.running.release y.traceId n := by
  cases hm with
  | rested h => exact absurd hi h
  | polled h hp hs =>
    have hact : (s.act e).running = (s.poll i).2.running := by simp only [act, h]
    rw [hact, hs]
    exact hp.books
  | dropped h hl =>
    have hact : s.act e = s.closeFeed i y := by simp only [act, h, drop, hy, hl, if_true]
    rw [hact]
    cases hg : y.front with
    | direct => exact .inl ⟨by simp [closeFeed, hg, Front.generation?], rfl⟩
    | closed => simp [Served.isLive, hg] at hl
    | _ => exact .inr ⟨_, rfl, rfl, by simp [closeFeed, hg, Front.generation?]⟩
  | undropped h hl =>
    exact .inl ⟨by simp [act, h, drop, hy, hl], rfl⟩
  | tasked h => exact .inl ⟨by simp [act, h, stepTask, hy], rfl⟩
  | worked h => exact .inl ⟨by simp [act, h, stepWork, hy], rfl⟩

theorem books_subject {s : Service} {e : Step} {i : Nat} (hi : e.action.subject? = some i) :
    Books s e (s.act e).running := by
  have hr : e.registers = false := by
    unfold Step.registers
    split
    · rename_i r ha
      simp [ha, Action.subject?] at hi
    · rfl
  cases hy : s.served[i]? with
  | none =>
    rw [act_absent hy hi]
    refine .kept hr ?_
    intro id x x' hx hx'
    rw [act_absent hy hi] at hx'
    rw [Option.some.inj (hx.symm.trans hx')]
  | some y =>
    obtain ⟨y', hy', hm⟩ := act_own hy hi
    rcases moves_books hm hi hy with ⟨hk, hg⟩ | ⟨n, hn, hg, hk⟩
    · rw [hk]
      refine .kept hr ?_
      intro id x x' hx hx'
      by_cases hs : e.action.subject? = some id
      · obtain rfl : i = id := Option.some.inj (hi.symm.trans hs)
        obtain rfl := Option.some.inj (hy.symm.trans hx)
        obtain rfl := Option.some.inj (hy'.symm.trans hx')
        exact hg
      · exact generation_eq hx hx' hs
    · rw [hk]
      refine .released hr hi hy hn ?_
      intro x' hx'
      obtain rfl := Option.some.inj (hy'.symm.trans hx')
      exact hg

theorem books_still {s : Service} {e : Step} (hr : e.registers = false)
    (hs : e.action.subject? = none) (h : (s.act e).running = s.running) :
    Books s e (s.act e).running := by
  rw [h]
  refine .kept hr ?_
  intro id x x' hx hx'
  exact generation_eq hx hx' (by simp [hs])

theorem books_act (s : Service) (e : Step) : Books s e (s.act e).running := by
  cases ha : e.action with
  | handle c =>
    cases c with
    | isAlive =>
      exact books_still (by simp [Step.registers, ha]) (by simp [ha, Action.subject?])
        (by simp [act, ha, handle])
    | execute r =>
      have h : (s.act e).running = s.running.register r.traceId r.nodeId s.served.length := by
        simp [act, ha, handle, execute, add]
      exact h ▸ .registered ha
    | stop r =>
      exact books_still (by simp [Step.registers, ha]) (by simp [ha, Action.subject?])
        (by simp [act, ha, handle])
  | launch r b =>
    exact books_still (by simp [Step.registers, ha]) (by simp [ha, Action.subject?])
      (by simp [act, ha, launch, add])
  | cancel i =>
    exact books_still (by simp [Step.registers, ha]) (by simp [ha, Action.subject?])
      (by simp [act, ha])
  | wait now =>
    exact books_still (by simp [Step.registers, ha]) (by simp [ha, Action.subject?])
      (by simp [act, ha, waitUntil])
  | poll i => exact books_subject (by rw [ha]; rfl)
  | drop i => exact books_subject (by rw [ha]; rfl)
  | task i => exact books_subject (by rw [ha]; rfl)
  | work i => exact books_subject (by rw [ha]; rfl)

-- A registration is held by the execution registered last for its trace, as long as it is live.
def Held (s : Service) : Prop :=
  ∀ ⦃t : String⦄ ⦃e : Registration⦄, s.running.get? t = some e →
    ∃ x, s.Latest t e.execution x ∧ x.front.generation? = some e.generation ∧ x.nodeId = e.node

structure Registry (s : Service) : Prop where
  held : s.Held
  below : ∀ {i : Nat} {x : Served} {n : UInt64}, s.served[i]? = some x →
    x.front.generation? = some n → n < s.running.next
  distinct : ∀ {i j : Nat} {x y : Served} {n : UInt64}, s.served[i]? = some x →
    s.served[j]? = some y → x.front.generation? = some n → y.front.generation? = some n → i = j
  listed : ∀ {t : String} {i : Nat} {x : Served} {n : UInt64}, s.Latest t i x →
    x.front.generation? = some n → s.running.get? t = some ⟨x.nodeId, i, n⟩
  superseded : ∀ {i j : Nat} {x y : Served}, i < j → s.served[i]? = some x → s.served[j]? = some y →
    y.isRegistered = true → y.traceId = x.traceId → x.isRegistered = true → x.isLive = true →
    x.cancelled = true

theorem held_start (g : Engine) (models : List LanguageModel) : Held (start g models) := by
  intro t e h
  simp [start, Running.get?, Running.fresh] at h

theorem registry_start (g : Engine) (models : List LanguageModel) :
    Registry (start g models) where
  held := held_start g models
  below h := by simp [start] at h
  distinct h := by simp [start] at h
  listed h := by simpa [start] using h.entry
  superseded _ h := by simp [start] at h

structure Continues (s s' : Service) : Prop where
  back : ∀ {i : Nat} {x' : Served}, s'.served[i]? = some x' → x'.isRegistered = true →
    ∃ x, s.served[i]? = some x ∧ x.Carried x' ∧
      ∀ {n}, x'.front.generation? = some n → x.front.generation? = some n
  forth : ∀ {i : Nat} {x : Served}, s.served[i]? = some x →
    ∃ x', s'.served[i]? = some x' ∧ x.Carried x'

theorem Continues.latest {s s' : Service} (h : Continues s s') {t : String} {i : Nat}
    {x' : Served} (hl : s'.Latest t i x') :
    ∃ x, s.Latest t i x ∧ x.Carried x' ∧
      ∀ {n}, x'.front.generation? = some n → x.front.generation? = some n := by
  obtain ⟨x, hx, hc, hg⟩ := h.back hl.entry hl.registered
  refine ⟨x, ⟨hx, hc.registered ▸ hl.registered, hc.traceId ▸ hl.trace_eq, ?_⟩, hc, hg⟩
  intro j y hy hr ht
  obtain ⟨y', hy', hcy⟩ := h.forth hy
  exact hl.last hy' (hcy.registered.trans hr) (hcy.traceId.trans ht)

theorem Continues.latest_of {s s' : Service} (h : Continues s s') {t : String} {i : Nat}
    {x x' : Served} (hl : s.Latest t i x) (hx' : s'.served[i]? = some x') (hc : x.Carried x') :
    s'.Latest t i x' := by
  refine ⟨hx', hc.registered.trans hl.registered, hc.traceId.trans hl.trace_eq, ?_⟩
  intro j y' hy' hr ht
  obtain ⟨y, hy, hcy, -⟩ := h.back hy' hr
  exact hl.last hy (hcy.registered ▸ hr) (hcy.traceId ▸ ht)

theorem Registry.continues {s s' : Service} (h : Registry s) (hh : s'.Held)
    (hc : Continues s s') (hn : s'.running.next = s.running.next)
    (he : ∀ {t e x'}, s.running.get? t = some e → s'.served[e.execution]? = some x' →
      x'.front.generation? = some e.generation → s'.running.get? t = some e) :
    Registry s' where
  held := hh
  below hx' hg := by
    obtain ⟨x, hx, -, hb⟩ := hc.back hx' (Served.isRegistered_of_generation? hg)
    exact hn ▸ h.below hx (hb hg)
  distinct hx' hy' hgx hgy := by
    obtain ⟨x, hx, -, hbx⟩ := hc.back hx' (Served.isRegistered_of_generation? hgx)
    obtain ⟨y, hy, -, hby⟩ := hc.back hy' (Served.isRegistered_of_generation? hgy)
    exact h.distinct hx hy (hbx hgx) (hby hgy)
  listed hl' hg := by
    obtain ⟨x, hl, hcx, hb⟩ := hc.latest hl'
    exact he (hcx.nodeId ▸ h.listed hl (hb hg)) hl'.entry hg
  superseded hij hx' hy' hr ht hrx hlive := by
    obtain ⟨x, hx, hcx, hb⟩ := hc.back hx' hrx
    obtain ⟨y, hy, hcy, -⟩ := hc.back hy' hr
    obtain ⟨n, hn⟩ := (Served.isLive_iff hrx).mp hlive
    have hrx' := hcx.registered ▸ hrx
    exact hcx.cancelled (h.superseded hij hx hy (hcy.registered ▸ hr)
      (hcy.traceId.symm.trans (ht.trans hcx.traceId)) hrx'
      ((Served.isLive_iff hrx').mpr ⟨n, hb hn⟩))

theorem Moves.generation_of {s : Service} {e : Step} {id : Nat} {x x' : Served} {n : UInt64}
    (h : Moves s e id x x') (hn : x'.front.generation? = some n) :
    x.front.generation? = some n := by
  cases h with
  | polled _ hp =>
    rcases hp.books with ⟨-, hg⟩ | ⟨m, -, hg, -⟩
    · exact hg ▸ hn
    · simp [hg] at hn
  | dropped =>
    obtain ⟨execution, front, cancelled⟩ := x
    cases front <;> simp [Front.shut, Front.generation?] at hn
  | _ => exact hn

theorem continues_act {s : Service} {e : Step} (hr : e.registers = false) :
    Continues s (s.act e) where
  back hx' hreg := by
    rcases served_act hx' with ⟨x, hx, hm⟩ | ⟨-, ha⟩
    · exact ⟨x, hx, hm.carried, hm.generation_of⟩
    · exfalso
      unfold arrival at ha
      split at ha
      · rename_i r h
        simp [Step.registers, h] at hr
      · cases ha
        simp [Served.isRegistered] at hreg
      · simp at ha
  forth hx := by
    obtain ⟨x', hx', hm⟩ := moves_act hx
    exact ⟨x', hx', hm.carried⟩

theorem Held.continues {s s' : Service} (h : s.Held) (hc : Continues s s')
    (he : ∀ {t e x x'}, s'.running.get? t = some e → s.Latest t e.execution x →
      s'.served[e.execution]? = some x' → x.front.generation? = some e.generation →
      x'.front.generation? = some e.generation)
    (hb : ∀ {t e}, s'.running.get? t = some e → s.running.get? t = some e) : s'.Held := by
  intro t e ht
  obtain ⟨x, hl, hg, hnode⟩ := h (hb ht)
  obtain ⟨x', hx', hcx⟩ := hc.forth hl.entry
  exact ⟨x', hc.latest_of hl hx' hcx, he ht hl hx' hg, hcx.nodeId.trans hnode⟩

theorem Held.kept {s : Service} {e : Step} (h : s.Held) (hr : e.registers = false)
    (hg : ∀ {id : Nat} {x x' : Served}, s.served[id]? = some x →
      (s.act e).served[id]? = some x' → x'.front.generation? = x.front.generation?)
    (hk : (s.act e).running = s.running) : (s.act e).Held :=
  h.continues (continues_act hr)
    (fun _ hl hx' hgx => (hg hl.entry hx').trans hgx) (fun ht => hk ▸ ht)

theorem Held.released {s : Service} {e : Step} {i : Nat} {y : Served} {n : UInt64}
    (h : s.Held) (hr : e.registers = false) (hi : e.action.subject? = some i)
    (hy : s.served[i]? = some y) (hn : y.front.generation? = some n)
    (hk : (s.act e).running = s.running.release y.traceId n) : (s.act e).Held := by
  refine h.continues (continues_act hr) ?_ ?_
  · intro t r x x' ht hl hx' hgx
    rw [hk, Running.get?_release] at ht
    have hir : i ≠ r.execution := by
      rintro rfl
      obtain rfl := Option.some.inj (hy.symm.trans hl.entry)
      exact ht.2 hl.trace_eq.symm (Option.some.inj (hgx.symm.trans hn))
    have hs : e.action.subject? ≠ some r.execution := by
      rw [hi]
      simpa using hir
    exact (generation_eq hl.entry hx' hs).trans hgx
  · intro t r ht
    rw [hk, Running.get?_release] at ht
    exact ht.1

theorem Registry.kept {s : Service} {e : Step} (h : Registry s) (hr : e.registers = false)
    (hh : (s.act e).Held) (hk : (s.act e).running = s.running) : Registry (s.act e) :=
  h.continues hh (continues_act hr) (by rw [hk]) fun ht _ _ => hk ▸ ht

theorem Registry.released {s : Service} {e : Step} {i : Nat} {y : Served} {n : UInt64}
    (h : Registry s) (hr : e.registers = false) (hh : (s.act e).Held)
    (hy : s.served[i]? = some y) (hn : y.front.generation? = some n)
    (hg : ∀ {x' : Served}, (s.act e).served[i]? = some x' → x'.front.generation? = none)
    (hk : (s.act e).running = s.running.release y.traceId n) : Registry (s.act e) := by
  refine h.continues hh (continues_act hr) (by simp [hk]) ?_
  intro t r x' ht hx' hgx'
  rw [hk, Running.get?_release]
  refine ⟨ht, ?_⟩
  rintro rfl hrn
  obtain ⟨x, hl, hgx, -⟩ := h.held ht
  obtain rfl : i = r.execution := h.distinct hy hl.entry hn (hrn ▸ hgx)
  simp [hg hx'] at hgx'

section

variable {s : Service} {e : Step} {r : ExecuteRequest} (ha : e.action = .handle (.execute r))

include ha

theorem registered_entry {i : Nat} {x' : Served} (hx' : (s.act e).served[i]? = some x') :
    (∃ x, s.served[i]? = some x ∧
        x' = { x with cancelled := x.cancelled || s.cancels i e }) ∨
      (i = s.served.length ∧ x' = ⟨.ofRequest r, .serving s.running.next, false⟩) := by
  have hs : e.action.subject? ≠ some i := by simp [ha, Action.subject?]
  rcases served_act hx' with ⟨x, hx, -⟩ | ⟨hi, harr⟩
  · exact .inl ⟨x, hx, Option.some.inj (hx'.symm.trans (act_other hx hs))⟩
  · simp only [arrival, ha, List.cons.injEq, and_true] at harr
    exact .inr ⟨hi, harr.symm⟩

theorem latest_registered : (s.act e).Latest r.traceId s.served.length
    ⟨.ofRequest r, .serving s.running.next, false⟩ := by
  refine ⟨?_, rfl, rfl, ?_⟩
  · rw [act_arrival le_rfl]
    simp [arrival, ha]
  · intro j y' hy' _ _
    have hj : j < (s.act e).served.length := (List.getElem?_eq_some_iff.mp hy').1
    rw [act_length] at hj
    simp only [arrival, ha, List.length_cons, List.length_nil] at hj
    omega

theorem latest_other {t : String} {i : Nat} {x : Served} (ht : r.traceId ≠ t)
    (hl : s.Latest t i x) :
    (s.act e).Latest t i { x with cancelled := x.cancelled || s.cancels i e } := by
  refine ⟨act_other hl.entry (by simp [ha, Action.subject?]), hl.registered, hl.trace_eq, ?_⟩
  intro j y' hy' hr hty
  rcases registered_entry ha hy' with ⟨y, hy, rfl⟩ | ⟨-, rfl⟩
  · exact hl.last hy hr hty
  · exact absurd hty ht

theorem latest_before {t : String} {i : Nat} {x : Served} (hx : s.served[i]? = some x)
    (hl : (s.act e).Latest t i { x with cancelled := x.cancelled || s.cancels i e }) :
    r.traceId ≠ t ∧ s.Latest t i x := by
  refine ⟨?_, hx, hl.registered, hl.trace_eq, ?_⟩
  · rintro rfl
    have hi : i < s.served.length := (List.getElem?_eq_some_iff.mp hx).1
    have := (hl.unique (latest_registered ha)).1
    omega
  · intro j y hy hr hty
    exact hl.last (act_other hy (by simp [ha, Action.subject?])) hr hty

theorem Registry.supersedes (h : Registry s) {i : Nat} {x : Served}
    (hx : s.served[i]? = some x) (hr : x.isRegistered = true) (hlive : x.isLive = true)
    (ht : r.traceId = x.traceId) : (x.cancelled || s.cancels i e) = true := by
  rcases latest_or_superseded hx hr with hl | ⟨j, y, hij, hy, hyr, hty⟩
  · obtain ⟨n, hn⟩ := (Served.isLive_iff hr).mp hlive
    have hg := h.listed hl hn
    simp [cancels, ha, ht, hg]
  · simp [h.superseded hij hx hy hyr hty hr hlive]

theorem Held.registered (h : s.Held)
    (hk : (s.act e).running = s.running.register r.traceId r.nodeId s.served.length) :
    (s.act e).Held := by
  intro t reg ht
  rw [hk, Running.get?_register] at ht
  split at ht
  · rename_i htr
    subst htr
    cases ht
    exact ⟨_, latest_registered ha, rfl, rfl⟩
  · rename_i htr
    obtain ⟨x, hl, hg, hnode⟩ := h ht
    exact ⟨_, latest_other ha htr hl, hg, hnode⟩

theorem Registry.registered (h : Registry s) (hh : (s.act e).Held)
    (hb : s.running.next.toNat + 1 < 2 ^ 64)
    (hk : (s.act e).running = s.running.register r.traceId r.nodeId s.served.length) :
    Registry (s.act e) := by
  -- The new generation is above all given out so far, as long as the counter does not wrap.
  have hnext : s.running.next < s.running.next + 1 := by
    rw [UInt64.lt_iff_toNat_lt, UInt64.toNat_add]
    simp only [UInt64.reduceToNat]
    omega
  have hrun : (s.act e).running.next = s.running.next + 1 := by rw [hk]; rfl
  refine ⟨hh, ?_, ?_, ?_, ?_⟩
  · intro i x' n hx' hn
    rw [hrun]
    rcases registered_entry ha hx' with ⟨x, hx, rfl⟩ | ⟨-, rfl⟩
    · exact UInt64.lt_trans (h.below hx hn) hnext
    · cases hn
      exact hnext
  · intro i j x' y' n hx' hy' hgx hgy
    rcases registered_entry ha hx' with ⟨x, hx, rfl⟩ | ⟨hi, rfl⟩ <;>
      rcases registered_entry ha hy' with ⟨y, hy, rfl⟩ | ⟨hj, rfl⟩
    · exact h.distinct hx hy hgx hgy
    · cases hgy
      exact absurd (h.below hx hgx) (UInt64.lt_irrefl _)
    · cases hgx
      exact absurd (h.below hy hgy) (UInt64.lt_irrefl _)
    · exact hi.trans hj.symm
  · intro t i x' n hl hn
    rw [hk, Running.get?_register]
    rcases registered_entry ha hl.entry with ⟨x, hx, rfl⟩ | ⟨hi, rfl⟩
    · obtain ⟨htr, hl⟩ := latest_before ha hx hl
      rw [if_neg htr]
      have hg := h.listed hl hn
      exact hg
    · have htr : r.traceId = t := hl.trace_eq
      cases hn
      rw [if_pos htr, hi]
      rfl
  · intro i j x' y' hij hx' hy' hry hty hrx hlive
    have hj : j < (s.act e).served.length := (List.getElem?_eq_some_iff.mp hy').1
    rw [act_length] at hj
    simp only [arrival, ha, List.length_cons, List.length_nil] at hj
    rcases registered_entry ha hx' with ⟨x, hx, rfl⟩ | ⟨hi, rfl⟩
    · rcases registered_entry ha hy' with ⟨y, hy, rfl⟩ | ⟨-, rfl⟩
      · simp [h.superseded hij hx hy hry hty hrx hlive]
      · exact h.supersedes ha hx hrx hlive hty
    · omega

end

theorem held_act {s : Service} (e : Step) (h : s.Held) : (s.act e).Held := by
  have hk := books_act s e
  generalize hrun : (s.act e).running = running at hk
  cases hk with
  | kept hr hg => exact h.kept hr hg hrun
  | released hr hi hy hn => exact h.released hr hi hy hn hrun
  | registered ha => exact h.registered ha hrun

theorem held_run (g : Engine) (models : List LanguageModel) (es : List Step) :
    ((start g models).run es).Held := by
  induction es using List.reverseRecOn with
  | nil => exact held_start g models
  | append_singleton es e ih =>
    rw [run_append, run_cons, run_nil]
    exact held_act e ih

theorem registry_act {s : Service} {e : Step} (h : Registry s)
    (hb : e.registers = true → s.running.next.toNat + 1 < 2 ^ 64) : Registry (s.act e) := by
  have hh := held_act e h.held
  have hk := books_act s e
  generalize hrun : (s.act e).running = running at hk
  cases hk with
  | kept hr hg => exact h.kept hr hh hrun
  | released hr hi hy hn hg => exact h.released hr hh hy hn hg hrun
  | registered ha => exact h.registered ha hh (hb (by simp [Step.registers, ha])) hrun

theorem next_act {s : Service} {e : Step} :
    (s.act e).running.next = if e.registers then s.running.next + 1 else s.running.next := by
  have hk := books_act s e
  generalize (s.act e).running = running at hk
  cases hk with
  | kept hr => simp [hr]
  | released hr => simp [hr]
  | registered ha => simp [Step.registers, ha, Running.register]

theorem registry_run (g : Engine) (models : List LanguageModel) (es : List Step)
    (h : es.countP Step.registers < 2 ^ 64) :
    Registry ((start g models).run es) ∧
      ((start g models).run es).running.next.toNat = es.countP Step.registers := by
  induction es using List.reverseRecOn with
  | nil => exact ⟨registry_start g models, rfl⟩
  | append_singleton es e ih =>
    rw [List.countP_append, List.countP_singleton] at h ⊢
    obtain ⟨hreg, hnext⟩ := ih (by omega)
    rw [run_append, run_cons, run_nil, next_act]
    by_cases he : e.registers = true
    · simp only [he, if_true] at h ⊢
      refine ⟨registry_act hreg fun _ => by omega, ?_⟩
      rw [UInt64.toNat_add, hnext]
      simp only [UInt64.reduceToNat]
      omega
    · simp only [he] at h ⊢
      exact ⟨registry_act hreg fun h => absurd h he, hnext⟩

structure Accounted (s : Service) : Prop where
  entry_iff : ∀ {t : String} {reg : Registration}, s.running.get? t = some reg ↔
    ∃ x, s.Latest t reg.execution x ∧ x.isLive = true ∧ x.nodeId = reg.node ∧
      x.front.generation? = some reg.generation
  registered_iff : ∀ {t : String}, (∃ reg, s.running.get? t = some reg) ↔
    ∃ i x, s.Latest t i x ∧ x.isLive = true
  others_cancelled : ∀ {t : String} {i j : Nat} {x y : Served}, s.Latest t i x →
    s.served[j]? = some y → y.isRegistered = true → y.traceId = t → y.isLive = true → j ≠ i →
    y.cancelled = true
  uncancelled_unique : ∀ {i j : Nat} {x y : Served}, s.served[i]? = some x →
    s.served[j]? = some y → x.isRegistered = true → y.isRegistered = true →
    x.traceId = y.traceId → x.isLive = true → y.isLive = true → x.cancelled = false →
    y.cancelled = false → i = j
  superseded_keeps : ∀ {i j : Nat} {x y : Served} (e : Step), s.served[i]? = some x →
    s.served[j]? = some y → x.isRegistered = true → y.isRegistered = true →
    x.traceId = y.traceId → i < j → e.action.subject? = some i → (s.act e).running = s.running
  size_eq : s.running.size = {t | ∃ i x, s.Latest t i x ∧ x.isLive = true}.ncard

theorem Registry.entry_iff {s : Service} (h : Registry s) {t : String} {reg : Registration} :
    s.running.get? t = some reg ↔ ∃ x, s.Latest t reg.execution x ∧ x.isLive = true ∧
      x.nodeId = reg.node ∧ x.front.generation? = some reg.generation := by
  constructor
  · intro ht
    obtain ⟨x, hl, hg, hnode⟩ := h.held ht
    exact ⟨x, hl, (Served.isLive_iff hl.registered).mpr ⟨_, hg⟩, hnode, hg⟩
  · rintro ⟨x, hl, -, hnode, hg⟩
    rw [h.listed hl hg, hnode]

theorem Registry.registered_iff {s : Service} (h : Registry s) {t : String} :
    (∃ reg, s.running.get? t = some reg) ↔ ∃ i x, s.Latest t i x ∧ x.isLive = true := by
  constructor
  · rintro ⟨reg, ht⟩
    obtain ⟨x, hl, hlive, -⟩ := h.entry_iff.mp ht
    exact ⟨_, x, hl, hlive⟩
  · rintro ⟨i, x, hl, hlive⟩
    obtain ⟨n, hn⟩ := (Served.isLive_iff hl.registered).mp hlive
    exact ⟨_, h.listed hl hn⟩

theorem Registry.superseded_keeps {s : Service} (h : Registry s) {i j : Nat} {x y : Served}
    {e : Step} (hx : s.served[i]? = some x) (hy : s.served[j]? = some y)
    (hr : y.isRegistered = true) (ht : x.traceId = y.traceId) (hij : i < j)
    (hs : e.action.subject? = some i) : (s.act e).running = s.running := by
  have hk := books_act s e
  generalize (s.act e).running = running at hk
  cases hk with
  | kept => rfl
  | registered ha => simp [ha, Action.subject?] at hs
  | released _ hi hz hn =>
    obtain rfl := Option.some.inj (hi.symm.trans hs)
    obtain rfl := Option.some.inj (hz.symm.trans hx)
    refine Running.release_eq_self ?_
    rintro reg hreg rfl
    obtain ⟨z, hl, hg, -⟩ := h.held hreg
    have hlast := hl.last hy hr ht.symm
    have heq := h.distinct hz hl.entry hn hg
    omega

theorem Registry.accounted {s : Service} (h : Registry s) : Accounted s where
  entry_iff := h.entry_iff
  registered_iff := h.registered_iff
  others_cancelled hl hy hr ht hlive hj := by
    have hle := hl.last hy hr ht
    exact h.superseded (by omega) hy hl.entry hl.registered (hl.trace_eq.trans ht.symm) hr hlive
  uncancelled_unique hx hy hrx hry ht hlx hly hcx hcy := by
    by_contra hij
    rcases Nat.lt_or_gt_of_ne hij with hij | hij
    · simp [h.superseded hij hx hy hry ht.symm hrx hlx] at hcx
    · simp [h.superseded hij hy hx hrx ht hry hly] at hcy
  superseded_keeps e hx hy _ hry ht hij hs := h.superseded_keeps hx hy hry ht hij hs
  size_eq := by
    rw [Running.size, Table.size_eq_ncard]
    congr 1
    ext t
    exact h.registered_iff

/-- The step drops the feed of the execution, or shows that it has ended. -/
def Closes (s : Service) (id : Nat) (e : Step) : Prop :=
  e.action = .drop id ∨ feed id s e = some .ended

theorem Feeds.live_iff {s s' : Service} {id : Nat} {x x' : Served} {shown : Polled}
    (hf : Feeds s id x shown x' s') (hr : x.isRegistered = true) :
    x'.isLive = true ↔ shown ≠ .ended := by
  cases hf <;> simp_all [Served.isRegistered, Served.isLive]

theorem Feeds.ended_of_closed {s s' : Service} {id : Nat} {x x' : Served} {shown : Polled}
    (hf : Feeds s id x shown x' s') (hr : x.isRegistered = true) (hl : x.isLive = false) :
    shown = .ended := by
  cases hf <;> simp_all [Served.isRegistered, Served.isLive]

theorem not_closes_of_subject? {s : Service} {id : Nat} {e : Step}
    (h : e.action.subject? ≠ some id) : ¬ s.Closes id e := by
  rintro (ha | hf)
  · exact h (by rw [ha]; rfl)
  · have ha : e.action ≠ .poll id := fun ha => h (by rw [ha]; rfl)
    simp [feed_other ha] at hf

theorem Moves.live_iff {s : Service} {e : Step} {id : Nat} {x x' : Served}
    (hm : Moves s e id x x') (hr : x.isRegistered = true) :
    x'.isLive = true ↔ x.isLive = true ∧ ¬ s.Closes id e := by
  have still {y : Served} (hc : ¬ s.Closes id e) (hf : y.front = x.front) :
      y.isLive = true ↔ x.isLive = true ∧ ¬ s.Closes id e := by
    rw [Served.isLive_eq_of_front hr hf]
    exact (and_iff_left hc).symm
  cases hm with
  | rested hs => exact still (not_closes_of_subject? hs) rfl
  | tasked ha => exact still (by simp [Closes, ha, feed_other]) rfl
  | worked ha => exact still (by simp [Closes, ha, feed_other]) rfl
  | undropped _ hl => simp [hl]
  | dropped ha =>
    have hc : s.Closes id e := .inl ha
    simp_all [Served.isRegistered, Served.isLive, Front.shut]
  | @polled shown _ _ ha hf hs =>
    have hc : s.Closes id e ↔ shown = .ended := by simp [Closes, ha, feed_polled ha, hs]
    rw [hf.live_iff hr, hc, iff_and_self]
    intro hne
    by_contra hl
    exact hne (hf.ended_of_closed hr (by simpa using hl))

/-- A registered execution is live from the command that starts it to the step that closes it. -/
theorem live_run {g : Engine} {models : List LanguageModel} {es : List Step} {id : Nat}
    {x : Served} (hx : ((start g models).run es).served[id]? = some x)
    (hr : x.isRegistered = true) :
    x.isLive = true ↔ ∀ pre e y, Takes es pre e →
      ((start g models).run pre).served[id]? = some y →
        ¬ ((start g models).run pre).Closes id e := by
  revert hr
  refine run_induction (motive := fun es id x => x.isRegistered = true →
    (x.isLive = true ↔ ∀ pre e y, Takes es pre e →
      ((start g models).run pre).served[id]? = some y →
        ¬ ((start g models).run pre).Closes id e)) ?_ ?_ hx
  · intro es e x ha hr
    obtain ⟨-, hs, -⟩ := of_arrival ha
    have hlive : x.isLive = true := by
      cases hf : x.front <;> simp_all [Served.isRegistered, Served.isLive, Front.streams]
    -- It was not there before, so that nothing can have closed it.
    refine iff_of_true hlive fun pre f y ht hy => ?_
    have hpre : pre <+: es := by
      rcases (takes_concat es e).mp ht with h | ⟨rfl, -⟩
      · exact h.before
      · exact List.prefix_rfl
    have hle := length_run_mono (start g models) hpre
    have hlt := (List.getElem?_eq_some_iff.mp hy).1
    omega
  · intro es e id y y' hy hm ih hr
    have hr' : y.isRegistered = true := hm.carried.registered ▸ hr
    rw [hm.live_iff hr', ih hr']
    constructor
    · rintro ⟨h, hc⟩ pre f z ht hz
      rcases (takes_concat es e).mp ht with ht | ⟨rfl, rfl⟩
      · exact h pre f z ht hz
      · exact hc
    · intro h
      exact ⟨fun pre f z ht => h pre f z ((takes_concat es e).mpr (.inl ht)),
        h es e y ((takes_concat es e).mpr (.inr ⟨rfl, rfl⟩)) hy⟩

theorem accounted_run (g : Engine) (models : List LanguageModel) (es : List Step)
    (h : es.countP Step.registers < 2 ^ 64) : Accounted ((start g models).run es) :=
  (registry_run g models es h).1.accounted

theorem accounted_replaced :
    Accounted ((start .bare []).run (Engine.bare.steps
      [.handle (.execute (.ofTerminal "t" "end")), .handle (.execute (.ofTerminal "t" "end")),
        .drop 0])) :=
  accounted_run .bare [] _ (by decide)

end Service

end NodeRun
