import NodeRun.Proofs.Milestones

namespace NodeRun

namespace Effect

def flushed? : Effect → Option TraceOptions
  | scopeFlushed o => some o
  | _ => none

theorem isMilestone_of_options? {e : Effect} {o : TraceOptions} (h : e.options? = some o) :
    e.isMilestone = true := by
  cases e <;> simp_all [options?, isMilestone]

theorem isMilestone_of_flushed? {e : Effect} {o : TraceOptions} (h : e.flushed? = some o) :
    e.isMilestone = true := by
  cases e <;> simp_all [flushed?, isMilestone]

theorem unflushed_of_still {es : List Effect} (h : ∀ e ∈ es, e.isMilestone = false) :
    es.filterMap flushed? = [] := by
  rw [List.filterMap_eq_nil_iff]
  intro e he
  by_contra hne
  obtain ⟨o, ho⟩ := Option.ne_none_iff_exists'.mp hne
  have hm := h e he
  rw [isMilestone_of_flushed? ho] at hm
  cases hm

end Effect

namespace Site

def opened (s : Site) (id : Nat) : List TraceOptions := (s.effectsOf id).filterMap Effect.options?

def flushed (s : Site) (id : Nat) : List TraceOptions := (s.effectsOf id).filterMap Effect.flushed?

theorem filterMap_milestones {α : Type} {f : Effect → Option α}
    (hf : ∀ {e : Effect} {a : α}, f e = some a → e.isMilestone = true) (s : Site) (id : Nat) :
    (s.milestones id).filterMap f = (s.effectsOf id).filterMap f := by
  unfold milestones
  rw [List.filterMap_filter]
  congr 1
  funext e
  cases h : f e with
  | none => simp
  | some a => simp [hf h]

theorem opened_eq (s : Site) (id : Nat) :
    s.opened id = (s.milestones id).filterMap Effect.options? :=
  (filterMap_milestones Effect.isMilestone_of_options? s id).symm

theorem flushed_eq (s : Site) (id : Nat) :
    s.flushed id = (s.milestones id).filterMap Effect.flushed? :=
  (filterMap_milestones Effect.isMilestone_of_flushed? s id).symm

section

variable {α : Type} (f : Effect → Option α) (s : Site)

def tagged : List (Option Nat × α) := s.journal.filterMap fun e => (f e.2).map (e.1, ·)

theorem map_tagged : (s.tagged f).map Prod.snd = s.effects.filterMap f := by
  unfold tagged effects
  rw [List.map_filterMap, List.filterMap_map]
  congr 1
  funext e
  simp [Function.comp_def]

theorem count_tagged [DecidableEq α] (id : Nat) (a : α) :
    (s.tagged f).count (some id, a) = ((s.effectsOf id).filterMap f).count a := by
  unfold tagged effectsOf
  rw [List.filterMap_filterMap]
  induction s.journal with
  | nil => rfl
  | cons e es ih =>
    obtain ⟨who, e⟩ := e
    by_cases hw : who = some id
    · cases hf : f e with
      | none => simpa [hw, hf] using ih
      | some a' =>
        by_cases ha : a' = a
        · simp [hw, hf, ha, ih]
        · simp [hw, hf, ha, ih]
    · cases hf : f e with
      | none => simpa [hw, hf] using ih
      | some a' => simp [hw, hf, ih]

end

end Site

namespace Execution

structure Scopeless (es : List Effect) : Prop where
  options : es.filterMap Effect.options? = []
  flushed : es.filterMap Effect.flushed? = []
  refused : .note .scopeRefused ∉ es

structure Balance (es : List Effect) : Prop where
  once : (es.filterMap Effect.options?).length ≤ 1
  flushed : es.filterMap Effect.flushed? = [] ∨
    es.filterMap Effect.flushed? = es.filterMap Effect.options?

section

variable {id : Nat} {r : ExecuteRequest} {s : Site} {b : Bool} {w : Work} {k : Task}
  {es fs opens starts reports : List Effect} {guard : Guard} {result : Except Error Prediction}
  {reply : Reply Prediction}

theorem Scopeless.nil : Scopeless [] := ⟨rfl, rfl, by simp⟩

theorem Scopeless.append (h : Scopeless es) (h' : Scopeless fs) : Scopeless (es ++ fs) :=
  ⟨by simp [h.options, h'.options], by simp [h.flushed, h'.flushed],
    by simp [h.refused, h'.refused]⟩

theorem Forwarded.scopeless (h : Forwarded r starts w) : Scopeless starts := by
  cases h <;> rename_i hes <;> subst hes <;> exact ⟨rfl, rfl, by simp⟩

theorem Reported.scopeless (h : Reported r b result reports) : Scopeless reports := by
  cases h <;> rename_i hes <;> subst hes <;> exact ⟨rfl, rfl, by simp⟩

theorem closing_options (opens : List Effect) : (closing opens).filterMap Effect.options? = [] := by
  unfold closing
  rw [List.filterMap_filterMap, List.filterMap_eq_nil_iff]
  intro e _
  cases e.options? <;> rfl

theorem closing_flushed (opens : List Effect) :
    (closing opens).filterMap Effect.flushed? = opens.filterMap Effect.options? := by
  unfold closing
  rw [List.filterMap_filterMap]
  congr 1
  funext e
  cases e.options? <;> rfl

theorem Entered.unflushed (h : Entered r s opens guard) :
    (opens.filterMap Effect.options?).length ≤ 1 ∧ opens.filterMap Effect.flushed? = [] := by
  cases h with
  | untraced _ hes => exact hes ▸ ⟨Nat.zero_le 1, rfl⟩
  | refused _ hes => exact hes ▸ ⟨Nat.zero_le 1, rfl⟩
  | opened _ _ hes => exact hes ▸ ⟨Nat.le_refl 1, rfl⟩

theorem Entered.balance (he : Entered r s opens guard) (hf : Scopeless fs) :
    Balance (opens ++ fs) := by
  obtain ⟨ho, hn⟩ := he.unflushed
  exact ⟨by simpa [hf.options] using ho, .inl (by simp [hf.flushed, hn])⟩

theorem Entered.flushed (he : Entered r s opens guard) (hf : Scopeless fs) :
    (opens ++ fs ++ closing opens).filterMap Effect.flushed? =
      (opens ++ fs ++ closing opens).filterMap Effect.options? := by
  have hn := he.unflushed.2
  simp [hf.options, hf.flushed, hn, closing_options, closing_flushed]

theorem Entered.unopened_of_untraced (he : Entered r s opens guard)
    (ht : r.workflow.enableTracing = false) : opens.filterMap Effect.options? = [] := by
  cases he with
  | untraced _ hes => rw [hes]; rfl
  | refused h => simp [ht] at h
  | opened h => simp [ht] at h

theorem Entered.unopened_of_refused (he : Entered r s opens guard)
    (hr : .note .scopeRefused ∈ opens) : opens.filterMap Effect.options? = [] := by
  cases he with
  | untraced _ hes => rw [hes]; rfl
  | refused _ hes => rw [hes]; rfl
  | opened _ _ hes => simp [hes] at hr

theorem Reached.parts (h : Reached id r s b w es k) :
    es = [] ∨ ∃ guard opens fs, Entered r s opens guard ∧ Scopeless fs ∧
      (es = opens ++ fs ∨ es = opens ++ fs ++ closing opens) := by
  induction h with
  | absent _ hes => exact .inl hes
  | opening _ hes => exact .inl hes
  | compiling _ he => exact .inr ⟨_, es, [], he, .nil, .inl (List.append_nil es).symm⟩
  | parsing _ he => exact .inr ⟨_, es, [], he, .nil, .inl (List.append_nil es).symm⟩
  | launching _ he => exact .inr ⟨_, es, [], he, .nil, .inl (List.append_nil es).symm⟩
  | invoking he hf hes => exact .inr ⟨_, _, _, he, hf.scopeless, .inl hes⟩
  | reporting he hf _ hes => exact .inr ⟨_, _, _, he, hf.scopeless, .inl hes⟩
  | flushing he hf _ hr hes =>
    exact .inr ⟨_, _, _, he, hf.scopeless.append hr.scopeless, .inl hes⟩
  | settling he hf _ hr hes =>
    exact .inr ⟨_, _, _, he, hf.scopeless.append hr.scopeless, .inr hes⟩
  | stopped he hf _ hr hes =>
    exact .inr ⟨_, _, _, he, hf.scopeless.append hr.scopeless, .inr hes⟩
  | settled he hf _ hr hes =>
    exact .inr ⟨_, _, _, he, hf.scopeless.append hr.scopeless, .inr hes⟩
  | panicked _ _ ih => exact ih

theorem Reached.balance (h : Reached id r s b w es k) : Balance es := by
  rcases h.parts with rfl | ⟨guard, opens, fs, he, hf, rfl | rfl⟩
  · exact ⟨Nat.zero_le 1, .inl rfl⟩
  · exact he.balance hf
  · have hb := he.balance hf
    exact ⟨by simpa [closing_options] using hb.once, .inr (he.flushed hf)⟩

theorem Reached.flushed_of_ended (h : Reached id r s b w es (.ended reply))
    (hp : ∀ m, reply ≠ .panic m) :
    es.filterMap Effect.flushed? = es.filterMap Effect.options? := by
  cases h with
  | stopped he hf _ hr hes => exact hes ▸ he.flushed (hf.scopeless.append hr.scopeless)
  | settled he hf _ hr hes => exact hes ▸ he.flushed (hf.scopeless.append hr.scopeless)
  | panicked => exact absurd rfl (hp _)

theorem Reached.unopened (h : Reached id r s b w es k)
    (hu : r.workflow.enableTracing = false ∨ .note .scopeRefused ∈ es) :
    es.filterMap Effect.options? = [] := by
  have entered {guard : Guard} {opens fs : List Effect} (he : Entered r s opens guard)
      (hf : Scopeless fs)
      (hu : r.workflow.enableTracing = false ∨ .note .scopeRefused ∈ opens ++ fs) :
      (opens ++ fs).filterMap Effect.options? = [] := by
    rw [List.filterMap_append, hf.options, List.append_nil]
    rcases hu with ht | hr
    · exact he.unopened_of_untraced ht
    · exact he.unopened_of_refused (by simpa [hf.refused] using hr)
  rcases h.parts with rfl | ⟨guard, opens, fs, he, hf, rfl | rfl⟩
  · rfl
  · exact entered he hf hu
  · have hc : .note .scopeRefused ∉ closing opens := by simp [closing]
    have ho := entered he hf (by simpa [hc] using hu)
    rw [List.filterMap_append, ho, closing_options, List.append_nil]

structure Settled (x : Execution) : Prop where
  isOver : x.stage.IsOver
  task : x.task = .absent ∨ ∃ reply, x.task = .ended reply

end

end Execution

namespace Polled

def isLast : Polled → Bool
  | event e => e.isLast
  | failure _ => true
  | _ => false

end Polled

namespace Execution

section

variable {g : Engine} {id : Nat} {c : Bool} {t t' : Turn} {shown : Polled}

theorem Settled.close (h : t.self.task = .absent ∨ ∃ reply, t.self.task = .ended reply) :
    Settled (close id t).self := by
  rw [close_self]
  exact ⟨.inr (.inl rfl), h⟩

theorem Polls.settles (hp : Polls id c t shown t') (hl : shown.isLast = true)
    (hk : t.self.task = .absent ∨ t.self.stage = .awaiting ∨ t.self.stage.IsOver) :
    Settled t'.self ∧ t'.self.task = t.self.task := by
  have unlaunched (h : t.self.stage = .idle ∨ t.self.stage = .waiting ∨ t.self.stage = .announced) :
      t.self.task = .absent := by
    rcases h with h | h | h <;> simpa [h, Stage.IsOver] using hk
  cases hp with
  | refused h => exact ⟨⟨.inr (.inr ⟨_, rfl⟩), .inl (unlaunched (.inl h))⟩, rfl⟩
  | left h => exact ⟨⟨.inr (.inr ⟨_, rfl⟩), .inl (unlaunched (.inr (.inl h)))⟩, rfl⟩
  | untargeted h => exact ⟨⟨.inr (.inr ⟨_, rfl⟩), .inl (unlaunched (.inr (.inr h)))⟩, rfl⟩
  | halted h => exact ⟨⟨.inr (.inr ⟨_, rfl⟩), .inl (unlaunched (.inr (.inr h)))⟩, rfl⟩
  | succeeded _ hk => exact ⟨⟨.inl rfl, .inr ⟨_, hk⟩⟩, rfl⟩
  | failed _ hk => exact ⟨⟨.inr (.inr ⟨_, rfl⟩), .inr ⟨_, hk⟩⟩, rfl⟩
  | panicked _ hk => exact ⟨⟨.inr (.inr ⟨_, rfl⟩), .inr ⟨_, hk⟩⟩, rfl⟩
  | _ => cases hl

theorem Polls.settled (hp : Polls id c t shown t') (h : Settled t.self) : Settled t'.self := by
  have ho := h.isOver
  cases hp with
  | exhausted => exact .close h.task
  | closed => exact h
  | _ => simp_all [Stage.IsOver]

theorem Polls.spawns (hp : Polls id c t shown t') (h : t.self.task = .absent) :
    t'.self.task = .absent ∨ t.self.stage = .started := by
  cases hp with
  | spawned hs => exact .inr hs
  | exhausted => exact .inl (by simpa [close_self] using h)
  | _ => exact .inl h

theorem TaskSteps.flushed_still (hs : TaskSteps g id c t t')
    (hk : ∀ guard result, t.self.task ≠ .flushing guard result) :
    t'.site.flushed id = t.site.flushed id := by
  have adds {s : Site} {es : List Effect} (ha : t.site.Adds s (some id) es)
      (hes : es.filterMap Effect.flushed? = []) : s.flushed id = t.site.flushed id := by
    simp [Site.flushed, ha.effectsOf, hes]
  have emitted {es : List Effect} (hes : es.filterMap Effect.flushed? = []) :
      (t.site.emit (some id) es).flushed id = t.site.flushed id :=
    adds (Site.adds_emit _ _ _) hes
  have compiled {n : Node} {reply : Reply Module} {es : List Effect}
      (hb : g.compiler.compile n t.self.request.workflow = (reply, es)) :
      es.filterMap Effect.flushed? = [] := by
    have hm := g.compiler.compile_effects n t.self.request.workflow
    rw [hb] at hm
    exact Effect.unflushed_of_still hm
  have reported (e : Error) :
      (reportEffects g e t.self.request).filterMap Effect.flushed? = [] := by
    unfold reportEffects
    split <;> rfl
  cases hs with
  | opened _ _ ho =>
    rcases Guard.of_openScope_ok ho with ⟨-, -, rfl⟩ | ⟨-, place, -, -, ha⟩
    · rfl
    · refine adds ha ?_
      unfold Tracer.openEffects
      split <;> rfl
  | refused _ _ ho =>
    obtain ⟨-, ha⟩ := Guard.of_openScope_error ho
    exact adds (ha.emit [.note .scopeRefused]) rfl
  | built _ _ _ hb => exact emitted (compiled hb)
  | unbuilt _ _ _ hb => exact emitted (compiled hb)
  | buildPanicked _ _ _ hb => exact emitted (compiled hb)
  | reported => exact emitted (reported _)
  | reportPanicked => exact emitted (reported _)
  | flushed h => exact absurd h (hk _ _)
  | stopped =>
    have hnote : [Effect.note .stopped].filterMap Effect.flushed? = [] := rfl
    exact emitted hnote
  | _ => rfl

end

end Execution

namespace Service

open Execution

section

variable {s s' : Service} {e : Step} {id : Nat} {x x' : Served} {shown : Polled}

theorem Feeds.settles (hf : Feeds s id x shown x' s') (hs : x.front.streams = true)
    (hl : (Execution.poll id x.cancelled (s.turn x)).1.isLast = true)
    (hm : x.execution.Marked s.site id x.cancelled) : Settled x'.execution := by
  have poll {shown t} (hp : Execution.poll id x.cancelled (s.turn x) = (shown, t)) :
      Settled t.self := by
    rw [hp] at hl
    exact ((polls_of_poll hp).settles hl hm.handed).1
  cases hf with
  | closed hf => simp [hf, Front.streams] at hs
  | finished hf => simp [hf, Front.streams] at hs
  | reported hf => simp [hf, Front.streams] at hs
  | silenced _ hp => exact .close (poll hp).task
  | direct _ hp => exact poll hp
  | failed _ hp => exact poll hp
  | ended _ hp => exact poll hp
  | shown _ hp => exact poll hp
  | pending _ hp => exact poll hp

theorem Feeds.settled (hf : Feeds s id x shown x' s') (h : Settled x.execution) :
    Settled x'.execution := by
  refine hf.keeps (P := fun y _ => Settled y) ?_ ?_ h
  · intro shown t hp
    exact Polls.settled (t := s.turn x) hp h
  · intro t _ ht
    exact .close ht.task

theorem Feeds.spawns (hf : Feeds s id x shown x' s') (h : x.execution.task = .absent) :
    x'.execution.task = .absent ∨ x.execution.stage = .started := by
  refine hf.keeps (P := fun y _ => y.task = .absent ∨ x.execution.stage = .started) ?_ ?_ (.inl h)
  · intro shown t hp
    exact Polls.spawns (t := s.turn x) hp h
  · intro t _ ht
    simpa [close_self] using ht

theorem Moves.spawns (hm : Moves s e id x x') (h : x.execution.task = .absent) :
    x'.execution.task = .absent ∨ e.action = .poll id ∧ x.execution.stage = .started := by
  cases hm with
  | rested => exact .inl h
  | undropped => exact .inl h
  | polled ha hf => exact (hf.spawns h).imp_right fun hs => ⟨ha, hs⟩
  | dropped => exact .inl (by simpa [close_self] using h)
  | tasked =>
    have hs := taskSteps_stepTask e.engine id x.cancelled (s.turn x)
    have ht : Execution.stepTask e.engine id x.cancelled (s.turn x) = s.turn x :=
      hs.eq_of_absent h
    exact .inl (by rw [ht]; exact h)
  | worked =>
    have hs := workSteps_stepWork e.engine id (s.turn x)
    exact .inl (by rw [hs.self_eq]; exact h)

theorem milestones_still (ha : ∀ i, e.action ≠ .task i ∧ e.action ≠ .work i) (id : Nat) :
    (s.act e).site.milestones id = s.site.milestones id := by
  obtain ⟨es, hadds, hm⟩ := adds_act s e
  exact hadds.milestones_still (hm ha)

theorem milestones_other (ha : e.action.subject? ≠ some id) :
    (s.act e).site.milestones id = s.site.milestones id := by
  obtain ⟨es, hadds, -⟩ := adds_act s e
  exact hadds.milestones_other ha

theorem Moves.settled (hx : s.served[id]? = some x) (hm : Moves s e id x x')
    (h : Settled x.execution) (hr : x.execution.Marked s.site id x.cancelled) :
    Settled x'.execution ∧ (s.act e).site.milestones id = s.site.milestones id := by
  cases hm with
  | rested hs => exact ⟨h, milestones_other hs⟩
  | polled ha hf => exact ⟨hf.settled h, milestones_still (by simp [ha]) id⟩
  | dropped ha => exact ⟨Settled.close (t := s.turn x) h.task, milestones_still (by simp [ha]) id⟩
  | undropped ha => exact ⟨h, milestones_still (by simp [ha]) id⟩
  | tasked ha =>
    have hs := taskSteps_stepTask e.engine id x.cancelled (s.turn x)
    have ht : Execution.stepTask e.engine id x.cancelled (s.turn x) = s.turn x := by
      rcases h.task with hk | ⟨reply, hk⟩
      · exact hs.eq_of_absent hk
      · exact hs.eq_of_ended hk
    refine ⟨by rw [ht]; exact h, ?_⟩
    simp [act, ha, stepTask, hx, ht]
  | worked ha =>
    have hs := workSteps_stepWork e.engine id (s.turn x)
    have hk : ∀ guard, x.execution.task ≠ .invoking guard := by
      intro guard hk
      simpa [hk] using h.task
    have ht := hs.eq_of_over (hr.reached.isOver hk)
    refine ⟨by rw [ht]; exact h, ?_⟩
    simp [act, ha, stepWork, hx, ht]

theorem concluded_of_flushed (hx : s.served[id]? = some x)
    (hr : x.execution.Marked s.site id x.cancelled)
    (hne : (s.act e).site.flushed id ≠ s.site.flushed id) :
    ∃ guard result, x.execution.task = .flushing guard result ∧
      Concluded id x.execution.work result := by
  have changed : (s.act e).site.milestones id ≠ s.site.milestones id := by
    intro h
    exact hne (by rw [Site.flushed_eq, Site.flushed_eq, h])
  by_cases hs : e.action.subject? = some id
  · cases ha : e.action with
    | task i =>
      obtain rfl : i = id := by simpa [ha, Action.subject?] using hs
      have hsteps := taskSteps_stepTask e.engine i x.cancelled (s.turn x)
      -- Only the step out of `flushing` flushes.
      have hk : ∃ guard result, x.execution.task = .flushing guard result := by
        by_contra hk
        have hk' : ∀ guard result, x.execution.task ≠ .flushing guard result :=
          fun guard result h => hk ⟨guard, result, h⟩
        exact hne (by simpa [act, ha, stepTask, hx] using hsteps.flushed_still hk')
      obtain ⟨guard, result, hk⟩ := hk
      have hreached := hr.reached
      rw [hk] at hreached
      cases hreached with | flushing _ _ hc => exact ⟨guard, result, hk, hc⟩
    | work i =>
      obtain rfl : i = id := by simpa [ha, Action.subject?] using hs
      obtain ⟨es, hadds, hes⟩ := (workSteps_stepWork e.engine i (s.turn x)).adds
      have hw : (workMilestones x.execution.work).filterMap Effect.flushed? = [] := by
        unfold workMilestones
        split <;> rfl
      refine absurd ?_ hne
      simp only [act, ha, stepWork, hx, put_site, Site.flushed_eq, hadds.milestones, hes,
        turn_site, turn_self, List.filterMap_append, hw, List.append_nil]
    | _ => exact absurd (milestones_still (by simp [ha]) id) changed
  · exact absurd (milestones_other hs) changed

end

section

variable {g : Engine} {models : List LanguageModel} {es pre post : List Step} {e : Step} {id : Nat}
  {x y : Served} {shown : Polled}

theorem settled_run (hx : ((start g models).run pre).served[id]? = some x)
    (h : Settled x.execution) (post : List Step) :
    ((start g models).run (pre ++ post)).site.milestones id =
      ((start g models).run pre).site.milestones id := by
  induction post generalizing pre x with
  | nil => rw [List.append_nil]
  | cons e post ih =>
    obtain ⟨x', hx', hmoves⟩ := moves_act (e := e) hx
    obtain ⟨hs', hm'⟩ := hmoves.settled hx h (marked_run hx)
    have hpre : ((start g models).run (pre ++ [e])).served[id]? = some x' := by simpa using hx'
    rw [List.append_cons, ih hpre hs', run_append]
    exact hm'

theorem unpolled_run (hx : ((start g models).run es).served[id]? = some x) :
    x.execution.task = .absent ∨ ∃ pre e ev, Takes es pre e ∧ e.action = .poll id ∧
      .ok ev ∈ (start g models).items id pre ∧ IsStart x.execution.request ev := by
  refine run_induction (motive := fun es id x => x.execution.task = .absent ∨
    ∃ pre e ev, Takes es pre e ∧ e.action = .poll id ∧ .ok ev ∈ (start g models).items id pre ∧
      IsStart x.execution.request ev) ?_ ?_ hx
  · intro es e x ha
    obtain ⟨-, -, r, hr⟩ := of_arrival ha
    exact .inl (by rw [hr]; rfl)
  · intro es e id x x' hx hm ih
    rw [hm.carried.request]
    rcases ih with hk | ⟨pre, f, ev, ht, ha, hev, hs⟩
    · refine (hm.spawns hk).imp_right ?_
      rintro ⟨ha, hstage⟩
      have hsaid := (told_run hx).said
      rw [hstage] at hsaid
      generalize hi : (start g models).items id es = items at hsaid
      cases hsaid with
      | @started _ now =>
        have hev : .ok (startEvent x.execution.request now) ∈ (start g models).items id es := by
          simp [hi]
        exact ⟨es, e, _, (takes_concat es e).mpr (.inr ⟨rfl, rfl⟩), ha, hev,
          isStart_startEvent _ _⟩
    · exact .inr ⟨pre, f, ev, (takes_concat es e).mpr (.inl ht), ha, hev, hs⟩

theorem flushed_of_ended (hx : ((start g models).run es).served[id]? = some x)
    (hp : ¬ x.execution.IsPanicked) {reply : Reply Prediction}
    (hk : x.execution.task = .ended reply) :
    ((start g models).run es).site.flushed id = ((start g models).run es).site.opened id := by
  have hr := (marked_run hx).reached
  rw [hk] at hr
  rw [Site.flushed_eq, Site.opened_eq]
  refine hr.flushed_of_ended ?_
  rintro m rfl
  exact hp ⟨m, hk⟩

theorem unopened_of_absent (hx : ((start g models).run es).served[id]? = some x)
    (hk : x.execution.task = .absent) : ((start g models).run es).site.opened id = [] := by
  have hr := (marked_run hx).reached
  rw [hk] at hr
  cases hr with | absent _ hes => rw [Site.opened_eq, hes]; rfl

theorem flushed_of_unopened (hx : ((start g models).run es).served[id]? = some x)
    (ho : ((start g models).run es).site.opened id = []) :
    ((start g models).run es).site.flushed id = [] := by
  have hb := (marked_run hx).reached.balance
  rw [Site.opened_eq] at ho
  rw [Site.flushed_eq]
  exact hb.flushed.elim (fun h => h) fun h => h.trans ho

theorem settled_of_last (hshown : stream id ((start g models).run pre) e = some shown)
    (hl : shown.isLast = true) :
    ∃ y t y', e.action = .poll id ∧ ((start g models).run pre).served[id]? = some y ∧
      Polls id y.cancelled (((start g models).run pre).turn y) shown t ∧
      ((start g models).run (pre ++ [e])).served[id]? = some y' ∧ Settled y'.execution := by
  cases hy : ((start g models).run pre).served[id]? with
  | none =>
    rw [stream_absent hy] at hshown
    cases hshown
  | some y =>
    obtain ⟨ha, hf, hpoll⟩ := of_stream hy hshown
    obtain ⟨y', hfeeds⟩ := feeds_poll hy
    have hy' : ((start g models).run (pre ++ [e])).served[id]? = some y' := by
      simpa [act, ha] using hfeeds.entry hy
    have hs : Settled y'.execution := hfeeds.settles hf (by rw [hpoll]; exact hl) (marked_run hy)
    exact ⟨y, _, y', ha, rfl, polls_of_poll (Prod.ext hpoll rfl), hy', hs⟩

theorem last_run (ht : Takes es pre e)
    (hshown : stream id ((start g models).run pre) e = some shown) (hl : shown.isLast = true) :
    ∃ y t, ((start g models).run pre).served[id]? = some y ∧
      Polls id y.cancelled (((start g models).run pre).turn y) shown t ∧
      ((start g models).run es).site.milestones id =
        ((start g models).run pre).site.milestones id := by
  obtain ⟨post, rfl⟩ := ht
  obtain ⟨y, t, y', ha, hy, hp, hy', hs⟩ := settled_of_last hshown hl
  have hstill : ((start g models).run (pre ++ [e])).site.milestones id =
      ((start g models).run pre).site.milestones id := by
    rw [run_append]
    exact milestones_still (by simp [ha]) id
  exact ⟨y, t, hy, hp, (settled_run hy' hs post).trans hstill⟩

theorem flushed_before_last (hg : ∀ f ∈ es, f.action = .task id → Faultless f.engine)
    (ht : Takes es pre e) (hshown : stream id ((start g models).run pre) e = some shown)
    (hl : shown.isLast = true) :
    ((start g models).run pre).site.flushed id = ((start g models).run es).site.opened id := by
  obtain ⟨y, t, hy, hp, hsame⟩ := last_run ht hshown hl
  have hopened : ((start g models).run es).site.opened id =
      ((start g models).run pre).site.opened id := by
    rw [Site.opened_eq, Site.opened_eq, hsame]
  obtain ⟨hs, hk⟩ := hp.settles hl (marked_run hy).handed
  rw [hopened]
  rcases hk ▸ hs.task with hk | ⟨reply, hk⟩
  · have ho := unopened_of_absent hy hk
    rw [ho, flushed_of_unopened hy ho]
  · have hn := unpanicked_run hy fun f hf => hg f (ht.before.subset hf)
    exact flushed_of_ended hy hn hk

theorem concluded_before
    (hne : (((start g models).run pre).act e).site.flushed id ≠
      ((start g models).run pre).site.flushed id) :
    ∃ y guard result, ((start g models).run pre).served[id]? = some y ∧
      y.execution.task = .flushing guard result ∧ Concluded id y.execution.work result := by
  cases hy : ((start g models).run pre).served[id]? with
  | some y =>
    obtain ⟨guard, result, hk, hc⟩ := concluded_of_flushed hy (marked_run hy) hne
    exact ⟨y, guard, result, rfl, hk, hc⟩
  | none =>
    by_cases hs : e.action.subject? = some id
    · rw [act_absent hy hs] at hne
      exact absurd rfl hne
    · rw [Site.flushed_eq, Site.flushed_eq, milestones_other hs] at hne
      exact absurd rfl hne

theorem flushed_perm (hg : ∀ f ∈ es, ∀ id, f.action = .task id → Faultless f.engine)
    (hover : ∀ x ∈ ((start g models).run es).served,
      x.execution.task = .absent ∨ ∃ reply, x.execution.task = .ended reply) :
    (((start g models).run es).site.effects.filterMap Effect.flushed?).Perm
      (((start g models).run es).site.effects.filterMap Effect.options?) := by
  have howned := owned_run g models es
  have unowned {f : Effect → Option TraceOptions} {o : TraceOptions}
      (hf : ∀ {e : Effect} {o : TraceOptions}, f e = some o → e.isMilestone = true) :
      (((start g models).run es).site.tagged f).count (none, o) = 0 := by
    rw [List.count_eq_zero]
    intro hmem
    obtain ⟨⟨who, e⟩, he, heq⟩ := List.mem_filterMap.mp hmem
    obtain ⟨o', ho, heq⟩ := Option.map_eq_some_iff.mp heq
    cases heq
    obtain ⟨i, -, hi⟩ := howned he (hf ho)
    cases hi
  -- Each execution flushes what it opened, so the lists agree owner by owner.
  have balanced (id : Nat) : ((start g models).run es).site.flushed id =
      ((start g models).run es).site.opened id := by
    cases hx : ((start g models).run es).served[id]? with
    | none =>
      have hlen := List.getElem?_eq_none_iff.mp hx
      rw [Site.flushed_eq, Site.opened_eq, howned.milestones_absent hlen]
      rfl
    | some x =>
      rcases hover x (List.mem_of_getElem? hx) with hk | ⟨reply, hk⟩
      · have ho := unopened_of_absent hx hk
        rw [ho, flushed_of_unopened hx ho]
      · exact flushed_of_ended hx (unpanicked_run hx fun f hf => hg f hf id) hk
  have htagged : (((start g models).run es).site.tagged Effect.flushed?).Perm
      (((start g models).run es).site.tagged Effect.options?) := by
    rw [List.perm_iff_count]
    rintro ⟨who, o⟩
    cases who with
    | none => rw [unowned Effect.isMilestone_of_flushed?, unowned Effect.isMilestone_of_options?]
    | some id =>
      rw [Site.count_tagged, Site.count_tagged]
      exact congrArg (List.count o) (balanced id)
  simpa only [Site.map_tagged] using htagged.map Prod.snd

end

structure Flushes (g : Engine) (models : List LanguageModel) (es : List Step) (id : Nat)
    (x : Served) : Prop where
  once : (((start g models).run es).site.opened id).length ≤ 1
  within : ((start g models).run es).site.flushed id = [] ∨
    ((start g models).run es).site.flushed id = ((start g models).run es).site.opened id
  ended : (∃ reply, x.execution.task = .ended reply) →
    ((start g models).run es).site.flushed id = ((start g models).run es).site.opened id
  concluded : ∀ {pre : List Step} {e : Step}, Takes es pre e →
    (((start g models).run pre).act e).site.flushed id ≠
      ((start g models).run pre).site.flushed id →
    ∃ y guard result, ((start g models).run pre).served[id]? = some y ∧
      y.execution.task = .flushing guard result ∧ Concluded id y.execution.work result
  before_last : ∀ {pre : List Step} {e : Step} {shown : Polled}, Takes es pre e →
    stream id ((start g models).run pre) e = some shown → shown.isLast = true →
    ((start g models).run pre).site.flushed id = ((start g models).run es).site.opened id
  unopened : (x.execution.request.workflow.enableTracing = false ∨
      .note .scopeRefused ∈ ((start g models).run es).site.effectsOf id ∨
      ∀ pre e ev, Takes es pre e → e.action = .poll id →
        .ok ev ∈ (start g models).items id pre → ¬ IsStart x.execution.request ev) →
    ((start g models).run es).site.opened id = [] ∧ ((start g models).run es).site.flushed id = []

theorem flushes_run {g : Engine} {models : List LanguageModel} {es : List Step}
    (hg : ∀ f ∈ es, ∀ id, f.action = .task id → Faultless f.engine) :
    (∀ {id : Nat} {x : Served}, ((start g models).run es).served[id]? = some x →
      Flushes g models es id x) ∧
    ((∀ x ∈ ((start g models).run es).served,
        x.execution.task = .absent ∨ ∃ reply, x.execution.task = .ended reply) →
      (((start g models).run es).site.effects.filterMap Effect.flushed?).Perm
        (((start g models).run es).site.effects.filterMap Effect.options?)) := by
  refine ⟨fun {id x} hx => ?_, flushed_perm hg⟩
  have hp := unpanicked_run hx fun f hf => hg f hf id
  have hr := (marked_run hx).reached
  have hb := hr.balance
  refine ⟨?_, ?_, ?_, fun _ => concluded_before,
    flushed_before_last fun f hf => hg f hf id, ?_⟩
  · rw [Site.opened_eq]
    exact hb.once
  · rw [Site.opened_eq, Site.flushed_eq]
    exact hb.flushed
  · rintro ⟨reply, hk⟩
    exact flushed_of_ended hx hp hk
  · intro hu
    have ho : ((start g models).run es).site.opened id = [] := by
      rcases hu with hu | hr' | hn
      · rw [Site.opened_eq]
        exact hr.unopened (.inl hu)
      · have hmem : .note .scopeRefused ∈ ((start g models).run es).site.milestones id :=
          List.mem_filter.mpr ⟨hr', rfl⟩
        rw [Site.opened_eq]
        exact hr.unopened (.inr hmem)
      · rcases unpolled_run hx with hk | ⟨pre, e, ev, ht, ha, hev, hs⟩
        · exact unopened_of_absent hx hk
        · exact absurd hs (hn pre e ev ht ha hev)
    exact ⟨ho, flushed_of_unopened hx ho⟩

theorem flushes_whole :
    ∃ x, ((start .bare []).run (Engine.bare.steps Action.whole)).served[0]? = some x ∧
      Flushes .bare [] (Engine.bare.steps Action.whole) 0 x ∧
      (((start .bare []).run (Engine.bare.steps Action.whole)).site.opened 0).length = 1 ∧
      ((start .bare []).run (Engine.bare.steps Action.whole)).site.flushed 0 =
        ((start .bare []).run (Engine.bare.steps Action.whole)).site.opened 0 := by
  have hg : ∀ f ∈ Engine.bare.steps Action.whole, ∀ id, f.action = .task id →
      Faultless f.engine := by
    simpa [Engine.steps] using fun _ _ _ _ => faultless_bare
  have hx : ((start .bare []).run (Engine.bare.steps Action.whole)).served[0]? = some _ := rfl
  have hf := (flushes_run hg).1 hx
  exact ⟨_, hx, hf, rfl, hf.ended ⟨_, rfl⟩⟩

end Service

end NodeRun
