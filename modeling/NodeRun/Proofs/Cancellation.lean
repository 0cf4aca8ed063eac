import NodeRun.Proofs.Registration

namespace NodeRun

namespace Command

def Ends (trace node : String) : Command → Prop
  | isAlive => False
  | execute r => r.traceId = trace
  | stop r => r.traceId = trace ∧ (r.nodeId = none ∨ r.nodeId = some node)

end Command

namespace Running

theorem stopping_eq_execution {r : Running} {q : StopRequest} {id : Nat} :
    r.stopping q = .execution id ↔ ∃ e, r.get? q.traceId = some e ∧ e.execution = id ∧
      (q.nodeId = none ∨ q.nodeId = some e.node) := by
  unfold stopping
  cases he : r.get? q.traceId with
  | none => simp
  | some e =>
    cases hn : q.nodeId with
    | none => simp
    | some node =>
      by_cases h : node = e.node
      · simp [h]
      · simp [h]

end Running

namespace Service

def Holds (s : Service) (trace : String) (id : Nat) : Prop :=
  ∃ e, s.running.get? trace = some e ∧ e.execution = id

def EndsIn (s : Service) (e : Step) (id : Nat) (x : Served) : Prop :=
  s.Holds x.traceId id ∧ ∃ c, e.action = .handle c ∧ c.Ends x.traceId x.nodeId

theorem Held.latest {s : Service} (h : s.Held) {trace : String} {id : Nat}
    (hh : s.Holds trace id) : ∃ x, s.Latest trace id x ∧ x.isLive = true := by
  obtain ⟨e, he, rfl⟩ := hh
  obtain ⟨x, hl, hg, -⟩ := h he
  exact ⟨x, hl, (Served.isLive_iff hl.registered).mpr ⟨_, hg⟩⟩

theorem Held.entry {s : Service} (h : s.Held) {trace : String} {e : Registration} {x : Served}
    (he : s.running.get? trace = some e) (hx : s.served[e.execution]? = some x) :
    x.traceId = trace ∧ x.nodeId = e.node := by
  obtain ⟨y, hl, -, hnode⟩ := h he
  obtain rfl := Option.some.inj (hx.symm.trans hl.entry)
  exact ⟨hl.trace_eq, hnode⟩

theorem cancels_iff {s : Service} (h : s.Held) {e : Step} {id : Nat} {x : Served}
    (hx : s.served[id]? = some x) (hr : x.isRegistered = true) :
    s.cancels id e = true ↔ s.EndsIn e id x := by
  unfold cancels EndsIn Holds
  cases ha : e.action with
  | handle c =>
    cases c with
    | isAlive => simp [Command.Ends]
    | execute r =>
      simp only [Option.any_eq_true, decide_eq_true_eq, Action.handle.injEq, exists_eq_left',
        Command.Ends]
      constructor
      · rintro ⟨reg, hreg, rfl⟩
        obtain ⟨ht, -⟩ := h.entry hreg hx
        exact ⟨⟨reg, ht ▸ hreg, rfl⟩, ht.symm⟩
      · rintro ⟨⟨reg, hreg, hid⟩, ht⟩
        exact ⟨reg, ht ▸ hreg, hid⟩
    | stop r =>
      simp only [Running.stopping_eq_execution, decide_eq_true_eq, Action.handle.injEq,
        exists_eq_left', Command.Ends]
      constructor
      · rintro ⟨reg, hreg, rfl, hnode⟩
        obtain ⟨ht, hn⟩ := h.entry hreg hx
        exact ⟨⟨reg, ht ▸ hreg, rfl⟩, ht.symm, hn ▸ hnode⟩
      · rintro ⟨⟨reg, hreg, rfl⟩, ht, hnode⟩
        obtain ⟨-, hn⟩ := h.entry hreg hx
        exact ⟨reg, ht ▸ hreg, rfl, hn ▸ hnode⟩
  | cancel i =>
    have hf : x.front ≠ .direct := by simpa [Served.isRegistered] using hr
    simp [hx, hf]
  | _ => simp

theorem holds_lt {s : Service} (h : s.Held) {trace : String} {id : Nat}
    (hh : s.Holds trace id) : id < s.served.length := by
  obtain ⟨x, hl, -⟩ := h.latest hh
  exact (List.getElem?_eq_some_iff.mp hl.entry).1

theorem EndsIn.congr {s : Service} {e : Step} {id : Nat} {x x' : Served} (h : x.Carried x') :
    s.EndsIn e id x' ↔ s.EndsIn e id x := by
  simp only [EndsIn, h.traceId, h.nodeId]

theorem carried_run {s : Service} {id : Nat} {x : Served} (hx : s.served[id]? = some x)
    (es : List Step) : ∃ x', (s.run es).served[id]? = some x' ∧ x.Carried x' := by
  induction es generalizing s x with
  | nil => exact ⟨x, hx, rfl, rfl, fun h => h⟩
  | cons e es ih =>
    obtain ⟨y, hy, hm⟩ := moves_act (e := e) hx
    obtain ⟨x', hx', hc⟩ := ih hy
    have hxy := hm.carried
    exact ⟨x', hx', hc.request.trans hxy.request, hc.registered.trans hxy.registered,
      fun h => hc.cancelled (hxy.cancelled h)⟩

section

variable {g : Engine} {models : List LanguageModel} {es pre : List Step} {id : Nat} {x y : Served}

theorem cancelled_iff (hx : ((start g models).run es).served[id]? = some x)
    (hr : x.isRegistered = true) :
    x.cancelled = true ↔ ∃ pre e, Takes es pre e ∧ ((start g models).run pre).EndsIn e id x := by
  revert hr
  refine run_induction (motive := fun es id x => x.isRegistered = true →
    (x.cancelled = true ↔
      ∃ pre e, Takes es pre e ∧ ((start g models).run pre).EndsIn e id x)) ?_ ?_ hx
  · intro es e x ha hr
    have hc : x.cancelled = false := by
      unfold arrival at ha
      split at ha
      · cases ha
        rfl
      · cases ha
        simp [Served.isRegistered] at hr
      · simp at ha
    -- Nothing before its arrival can have ended it: an entry names only what is there already.
    simp only [hc, Bool.false_eq_true, false_iff, not_exists, not_and]
    intro pre f hp hends
    have hlt := holds_lt (held_run g models pre) hends.1
    have hpre : pre <+: es := by
      rcases takes_concat es e |>.mp hp with hp | ⟨rfl, -⟩
      · exact hp.before
      · exact List.prefix_refl _
    exact Nat.lt_irrefl _ (Nat.lt_of_lt_of_le hlt (length_run_mono _ hpre))
  · intro es e id x x' hx hm ih hr'
    have hr : x.isRegistered = true := hm.carried.registered ▸ hr'
    rw [hm.cancelled_eq, Bool.or_eq_true, ih hr, cancels_iff (held_run g models es) hx hr]
    simp only [EndsIn.congr hm.carried, takes_concat]
    constructor
    · rintro (⟨pre, f, hp, hf⟩ | hf)
      · exact ⟨pre, f, .inl hp, hf⟩
      · exact ⟨es, e, .inr ⟨rfl, rfl⟩, hf⟩
    · rintro ⟨pre, f, hp | ⟨rfl, rfl⟩, hf⟩
      · exact .inl ⟨pre, f, hp, hf⟩
      · exact .inr hf

theorem ends_of_changed {e : Step} {y' : Served} (hp : Takes es pre e)
    (hx : ((start g models).run es).served[id]? = some x) (hr : x.isRegistered = true)
    (hy : ((start g models).run pre).served[id]? = some y)
    (hy' : (((start g models).run pre).act e).served[id]? = some y')
    (hc : y'.cancelled ≠ y.cancelled) : ((start g models).run pre).EndsIn e id x := by
  obtain ⟨post, rfl⟩ := hp.before
  rw [run_append] at hx
  obtain ⟨z, hz, hyx⟩ := carried_run hy post
  obtain rfl := Option.some.inj (hx.symm.trans hz)
  obtain ⟨z, hz, hm⟩ := moves_act (e := e) hy
  obtain rfl := Option.some.inj (hy'.symm.trans hz)
  rw [EndsIn.congr hyx, ← cancels_iff (held_run g models pre) hy (hyx.registered ▸ hr)]
  by_contra hn
  simp [hm.cancelled_eq, hn] at hc

theorem holds_of_latest (hb : pre.countP Step.registers < 2 ^ 64) {trace : String}
    (hl : ((start g models).run pre).Latest trace id y) (hlive : y.isLive = true) :
    ((start g models).run pre).Holds trace id := by
  obtain ⟨n, hn⟩ := (Served.isLive_iff hl.registered).mp hlive
  exact ⟨_, (registry_run g models pre hb).1.listed hl hn, rfl⟩

end

structure Causes (g : Engine) (models : List LanguageModel) (es : List Step) (id : Nat)
    (x : Served) : Prop where
  cancelled_iff : x.cancelled = true ↔
    ∃ pre e, Takes es pre e ∧ ((start g models).run pre).EndsIn e id x
  changed : ∀ {pre : List Step} {e : Step} {y y' : Served}, Takes es pre e →
    ((start g models).run pre).served[id]? = some y →
    (((start g models).run pre).act e).served[id]? = some y' → y'.cancelled ≠ y.cancelled →
    ((start g models).run pre).EndsIn e id x
  latest : ∀ {pre : List Step}, pre <+: es → ((start g models).run pre).Holds x.traceId id →
    ∃ y, ((start g models).run pre).Latest x.traceId id y ∧ y.isLive = true
  holds : ∀ {pre : List Step} {y : Served}, pre <+: es → pre.countP Step.registers < 2 ^ 64 →
    ((start g models).run pre).Latest x.traceId id y → y.isLive = true →
    ((start g models).run pre).Holds x.traceId id
  stop_keeps : ∀ {pre : List Step} {e : Step} {r : StopRequest}, Takes es pre e →
    e.action = .handle (.stop r) →
    (((start g models).run pre).act e).running = ((start g models).run pre).running

theorem causes_run {g : Engine} {models : List LanguageModel} {es : List Step} {id : Nat}
    {x : Served} (hx : ((start g models).run es).served[id]? = some x)
    (hr : x.isRegistered = true) : Causes g models es id x where
  cancelled_iff := cancelled_iff hx hr
  changed hp hy hy' hc := ends_of_changed hp hx hr hy hy' hc
  latest _ hh := (held_run g models _).latest hh
  holds _ hb hl hlive := holds_of_latest hb hl hlive
  stop_keeps _ ha := by simp [act, ha, handle]

theorem causes_stopped :
    ∃ x, ((start .bare []).run (Engine.bare.steps
        [.handle (.execute (.ofTerminal "t" "end")), .handle (.stop ⟨"t", some "other"⟩),
          .handle (.stop ⟨"t", none⟩)])).served[0]? = some x ∧ x.cancelled = true ∧
      Causes .bare [] (Engine.bare.steps
        [.handle (.execute (.ofTerminal "t" "end")), .handle (.stop ⟨"t", some "other"⟩),
          .handle (.stop ⟨"t", none⟩)]) 0 x :=
  ⟨_, rfl, rfl, causes_run rfl rfl⟩

end Service

end NodeRun
