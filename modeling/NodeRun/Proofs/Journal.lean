import NodeRun.Proofs.Compilation
import NodeRun.Proofs.Run

namespace NodeRun

namespace Effect

def isMilestone : Effect → Bool
  | note .scopeRefused => true
  | note .failureReported => true
  | forwardStarted _ => true
  | scopeOpened _ => true
  | scopeFlushed _ => true
  | failureReported _ _ => true
  | _ => false

def isBuilding : Effect → Bool
  | note .compiling => true
  | note .signatureCompiled => true
  | modelWanted _ => true
  | backendWanted _ _ => true
  | evaluatorWanted _ => true
  | _ => false

theorem not_isMilestone_of_isBuilding {e : Effect} (h : e.isBuilding = true) :
    e.isMilestone = false := by
  unfold isBuilding at h
  split at h <;> first | rfl | cases h

end Effect

namespace Site

def optionsAt (s : Site) (place : Nat) : Option TraceOptions :=
  (s.scopes[place]?).map Scope.options

def milestones (s : Site) (id : Nat) : List Effect :=
  (s.effectsOf id).filter Effect.isMilestone

structure Adds (s s' : Site) (who : Option Nat) (es : List Effect) : Prop where
  journal : s'.journal = s.journal ++ es.map (fun e => (who, e))
  scopes : ∀ {place : Nat} {o : TraceOptions}, s.optionsAt place = some o →
    s'.optionsAt place = some o

section

variable {s s' s'' : Site} {who : Option Nat} {es fs : List Effect}

theorem Adds.refl (s : Site) (who : Option Nat) : s.Adds s who [] :=
  ⟨by simp, fun h => h⟩

theorem Adds.trans (h : s.Adds s' who es) (h' : s'.Adds s'' who fs) :
    s.Adds s'' who (es ++ fs) :=
  ⟨by rw [h'.journal, h.journal]; simp, fun ho => h'.scopes (h.scopes ho)⟩

theorem Adds.emit (h : s.Adds s' who es) (fs : List Effect) :
    s.Adds (s'.emit who fs) who (es ++ fs) :=
  ⟨by simp [Site.emit, h.journal], h.scopes⟩

theorem adds_emit (s : Site) (who : Option Nat) (es : List Effect) :
    s.Adds (s.emit who es) who es :=
  (Adds.refl s who).emit es

theorem adds_tick (s : Site) (who : Option Nat) : s.Adds s.tick who [] :=
  ⟨by simp [Site.tick], fun h => h⟩

theorem Adds.effectsOf (h : s.Adds s' who es) (id : Nat) :
    s'.effectsOf id = s.effectsOf id ++ if who = some id then es else [] := by
  unfold Site.effectsOf
  rw [h.journal, List.filterMap_append, List.filterMap_map]
  split
  · rename_i hw
    have own : (fun e : Option Nat × Effect => if e.1 = some id then some e.2 else none) ∘
        (fun e => (who, e)) = some := funext fun _ => if_pos hw
    rw [own, List.filterMap_some]
  · rename_i hw
    simp [hw]

theorem Adds.milestones {id : Nat} (h : s.Adds s' (some id) es) :
    s'.milestones id = s.milestones id ++ es.filter Effect.isMilestone := by
  simp [Site.milestones, h.effectsOf]

theorem Adds.milestones_other {id : Nat} (h : s.Adds s' who es) (hw : who ≠ some id) :
    s'.milestones id = s.milestones id := by
  simp [Site.milestones, h.effectsOf, hw]

theorem Adds.milestones_still {id : Nat} (h : s.Adds s' who es)
    (hes : ∀ e ∈ es, e.isMilestone = false) : s'.milestones id = s.milestones id := by
  have hnil : es.filter Effect.isMilestone = [] := by simpa using hes
  unfold Site.milestones
  rw [h.effectsOf, List.filter_append]
  split <;> simp [hnil]

end

section

variable (s : Site) (t : Tracer) (who : Option Nat)

theorem optionsAt_set {s : Site} {place : Nat} {scope scope' : Scope}
    (hs : s.scopes[place]? = some scope) (ho : scope'.options = scope.options) (i : Nat) :
    ((s.scopes.set place scope')[i]?).map Scope.options = s.optionsAt i := by
  unfold optionsAt
  rw [List.getElem?_set]
  split
  · rename_i hi
    subst hi
    have hlt : place < s.scopes.length := (List.getElem?_eq_some_iff.mp hs).1
    rw [if_pos hlt, hs]
    simp [ho]
  · rfl

theorem adds_record (place : Nat) (x : Span) :
    ∃ es, s.Adds (s.record t who place x) who es ∧ ∀ e ∈ es, e.isMilestone = false := by
  unfold record
  cases hs : s.scopes[place]? with
  | none => exact ⟨[], .refl s who, by simp⟩
  | some scope =>
    refine ⟨(t.record scope x).2, ⟨rfl, fun h => ?_⟩, ?_⟩
    · have ho : (t.record scope x).1.options = scope.options := by
        unfold Tracer.record
        split <;> rfl
      exact (optionsAt_set hs ho _).trans h
    · unfold Tracer.record
      split <;> simp [Effect.isMilestone]

theorem adds_flush {s : Site} {place : Nat} {o : TraceOptions} (h : s.optionsAt place = some o) :
    ∃ es, s.Adds (s.flush t who place).2 who (.scopeFlushed o :: es) ∧
      ∀ e ∈ es, e.isMilestone = false := by
  unfold optionsAt at h
  unfold flush
  cases hs : s.scopes[place]? with
  | none => simp [hs] at h
  | some scope =>
    obtain rfl : scope.options = o := by simpa [hs] using h
    have hf : ∃ es, (scope.flush t s.time).2.1 = .scopeFlushed scope.options :: es ∧
        (scope.flush t s.time).2.2.options = scope.options ∧
        ∀ e ∈ es, e.isMilestone = false := by
      unfold Scope.flush
      split
      · refine ⟨_, rfl, rfl, ?_⟩
        unfold Scope.flushBuffered
        split
        · simp [Effect.isMilestone]
        · split <;> simp [Effect.isMilestone]
      · exact ⟨[], rfl, rfl, by simp⟩
    obtain ⟨es, hes, ho, hm⟩ := hf
    refine ⟨es, ⟨?_, fun hi => ?_⟩, hm⟩
    · simp only [emit, hes]
    · exact (optionsAt_set hs ho _).trans hi

end

end Site

namespace Guard

theorem adds_finish {s : Site} (t : Tracer) (who : Option Nat) {place : Nat} {o : TraceOptions}
    (h : s.optionsAt place = some o) :
    ∃ es, s.Adds (finish (some place) s t who).2 who (.scopeFlushed o :: es) ∧
      ∀ e ∈ es, e.isMilestone = false := by
  obtain ⟨es, ha, hm⟩ := Site.adds_flush t who h
  unfold finish
  simp only
  split
  · rename_i site hf
    rw [hf] at ha
    exact ⟨es, ha, hm⟩
  · rename_i e site hf
    rw [hf] at ha
    refine ⟨es ++ [.note .flushFailed], by simpa using ha.emit [.note .flushFailed], ?_⟩
    simpa [or_imp, forall_and, Effect.isMilestone] using hm

theorem of_openScope_ok {s s' : Site} {t : Tracer} {who : Option Nat} {wanted : Bool}
    {o : TraceOptions} {guard : Guard} (h : openScope s t who wanted o = (.ok guard, s')) :
    (wanted = false ∧ guard = none ∧ s' = s) ∨
      (wanted = true ∧ ∃ place, guard = some place ∧ s'.optionsAt place = some o ∧
        s.Adds s' who (t.openEffects o)) := by
  unfold openScope at h
  split at h
  · rename_i hw
    refine .inr ⟨hw, ?_⟩
    unfold Site.openScope Tracer.openScope at h
    cases ho : t.opens o with
    | error e => simp [ho, Except.map] at h
    | ok =>
      simp only [ho, Except.map, Prod.mk.injEq, Except.ok.injEq] at h
      obtain ⟨rfl, rfl⟩ := h
      refine ⟨_, rfl, ?_, ⟨rfl, fun {place o'} hp => ?_⟩⟩
      · simp [Site.optionsAt, Site.emit, Site.tick, Scope.ofOptions]
      · have hlt : place < s.scopes.length := by
          unfold Site.optionsAt at hp
          obtain ⟨scope, hs, -⟩ := Option.map_eq_some_iff.mp hp
          exact (List.getElem?_eq_some_iff.mp hs).1
        simpa [Site.optionsAt, Site.emit, Site.tick, List.getElem?_append_left hlt] using hp
  · rename_i hw
    simp only [Prod.mk.injEq, Except.ok.injEq] at h
    exact .inl ⟨by simpa using hw, h.1.symm, h.2.symm⟩

theorem of_openScope_error {s s' : Site} {t : Tracer} {who : Option Nat} {wanted : Bool}
    {o : TraceOptions} {e : Error} (h : openScope s t who wanted o = (.error e, s')) :
    wanted = true ∧ s.Adds s' who [] := by
  unfold openScope at h
  split at h
  · rename_i hw
    refine ⟨hw, ?_⟩
    unfold Site.openScope Tracer.openScope at h
    cases ho : t.opens o with
    | ok => simp [ho, Except.map] at h
    | error e' =>
      simp only [ho, Except.map, Prod.mk.injEq] at h
      obtain ⟨-, rfl⟩ := h
      exact (Site.adds_tick s who).emit []
  · simp at h

theorem adds_finish_any (s : Site) (t : Tracer) (who : Option Nat) (guard : Guard) :
    ∃ es, s.Adds (guard.finish s t who).2 who es := by
  cases guard with
  | none => exact ⟨[], .refl s who⟩
  | some place =>
    cases ho : s.optionsAt place with
    | some o =>
      obtain ⟨es, ha, -⟩ := adds_finish t who ho
      exact ⟨_, ha⟩
    | none =>
      have hs : s.scopes[place]? = none := Option.map_eq_none_iff.mp ho
      refine ⟨[], ?_⟩
      unfold finish Site.flush
      simp only [hs]
      exact .refl s who

end Guard

namespace Compiler

theorem Asks.isBuilding {c : Compiler} {w : Workflow} {k : NodeKind} {call : Effect}
    {reply : Reply Module} (h : c.Asks w k call reply) : call.isBuilding = true := by
  cases h <;> rfl

theorem Compiles.isBuilding {c : Compiler} {w : Workflow} {k : NodeKind} {x : Compiled}
    (h : c.Compiles w k x) : ∀ e ∈ x.2, e.isBuilding = true := by
  cases h with
  | refused => exact List.forall_mem_nil _
  | made => exact List.forall_mem_nil _
  | asked h hn =>
    refine List.forall_mem_cons.mpr ⟨h.isBuilding, List.forall_mem_map.mpr fun x hx => ?_⟩
    rw [hn x hx]
    rfl

theorem compile_building (c : Compiler) (n : Node) (w : Workflow) :
    ∀ e ∈ (c.compile n w).2, e.isBuilding = true :=
  List.forall_mem_cons.mpr ⟨rfl, (c.compiles w n.kind).isBuilding⟩

theorem compile_effects (c : Compiler) (n : Node) (w : Workflow) :
    ∀ e ∈ (c.compile n w).2, e.isMilestone = false :=
  fun e he => Effect.not_isMilestone_of_isBuilding (c.compile_building n w e he)

end Compiler

theorem Invocation.begin_effects (c : InvocationContext) (m : Moment)
    (models : List LanguageModel) (module : Module) (inputs : Table Json) :
    ∀ e ∈ (Invocation.begin c m models module inputs).2.2, e.isMilestone = false := by
  unfold Invocation.begin
  cases module with
  | contexts r => cases ContextsRetriever.query inputs <;> simp [Effect.isMilestone]
  | _ => simp [Effect.isMilestone]

namespace Execution

section

variable {g : Engine} {id : Nat} {c : Bool} {t t' : Turn} {shown : Polled}

theorem Polls.adds (h : Polls id c t shown t') :
    ∃ es, t.site.Adds t'.site (some id) es ∧ ∀ e ∈ es, e.isMilestone = false := by
  cases h with
  | admitted => exact ⟨_, Site.adds_emit _ _ [.note .executing], by simp [Effect.isMilestone]⟩
  | granted => exact ⟨_, Site.adds_emit _ _ [.note .executing], by simp [Effect.isMilestone]⟩
  | succeeded => exact ⟨_, Site.adds_emit _ _ [.note .executed], by simp [Effect.isMilestone]⟩
  | exhausted => exact ⟨[], by rw [close_site]; exact .refl _ _, by simp⟩
  | _ => exact ⟨[], .refl _ _, by simp⟩

theorem TaskSteps.adds (h : TaskSteps g id c t t') :
    ∃ es, t.site.Adds t'.site (some id) es := by
  cases h with
  | opened _ _ ho =>
    rcases Guard.of_openScope_ok ho with ⟨-, -, rfl⟩ | ⟨-, place, -, -, ha⟩
    · exact ⟨[], .refl _ _⟩
    · exact ⟨_, ha⟩
  | refused _ _ ho =>
    obtain ⟨-, ha⟩ := Guard.of_openScope_error ho
    exact ⟨_, ha.emit [.note .scopeRefused]⟩
  | built => exact ⟨_, Site.adds_emit _ _ _⟩
  | unbuilt => exact ⟨_, Site.adds_emit _ _ _⟩
  | buildPanicked => exact ⟨_, Site.adds_emit _ _ _⟩
  | reported => exact ⟨_, Site.adds_emit _ _ _⟩
  | reportPanicked => exact ⟨_, Site.adds_emit _ _ _⟩
  | flushed => exact Guard.adds_finish_any _ _ _ _
  | stopped => exact ⟨_, Site.adds_emit _ _ [.note .stopped]⟩
  | _ => exact ⟨[], .refl _ _⟩

theorem adds_keepSpan {guard : Guard} {span : Option Span} {reply last : Reply Prediction}
    {s s' : Site} (h : keepSpan g id guard span reply s = (last, s')) :
    ∃ es, s.Adds s' (some id) es ∧ ∀ e ∈ es, e.isMilestone = false := by
  unfold keepSpan at h
  split at h
  · split at h
    · cases h
      exact ⟨[], .refl _ _, by simp⟩
    · cases h
      exact Site.adds_record _ _ _ _ _
  · cases h
    exact ⟨[], .refl _ _, by simp⟩

def workMilestones : Work → List Effect
  | .ready _ _ inputs => [.forwardStarted inputs]
  | _ => []

theorem WorkSteps.adds (h : WorkSteps g id t t') :
    ∃ es, t.site.Adds t'.site (some id) es ∧
      es.filter Effect.isMilestone = workMilestones t.self.work := by
  have ticked (models : List LanguageModel) :
      t.site.Adds ({ t.site with models := models } : Site).tick (some id) [] :=
    ⟨by simp [Site.tick], fun h => h⟩
  have begun {guard m inputs begun models es}
      (hb : Invocation.begin (context t.self.request guard) t.site.moment t.site.models m inputs =
        (begun, models, es)) :
      es.filter Effect.isMilestone = [] := by
    have he := Invocation.begin_effects (context t.self.request guard) t.site.moment t.site.models
      m inputs
    rw [hb] at he
    simpa using he
  cases h with
  | finished hw hb =>
    refine ⟨_, (ticked _).emit _, ?_⟩
    rw [List.nil_append, List.filter_cons_of_pos rfl, begun hb, hw]
    rfl
  | called hw hb =>
    refine ⟨_, (ticked _).emit _, ?_⟩
    rw [List.nil_append, List.filter_cons_of_pos rfl, begun hb, hw]
    rfl
  | returned hw _ _ hk =>
    obtain ⟨es, ha, hm⟩ := adds_keepSpan hk
    refine ⟨_, (ticked _).trans ha, ?_⟩
    simpa [hw, workMilestones] using hm
  | waiting hw => exact ⟨[], .refl _ _, by simp [hw, workMilestones]⟩
  | idle hw =>
    refine ⟨[], .refl _ _, ?_⟩
    rcases hw with hw | hw | ⟨r, hw⟩ <;> simp [hw, workMilestones]

end

end Execution

namespace Service

open Execution

section

variable (s : Service) (id : Nat) (x : Served) (n : Notice)

@[simp] theorem note_site : (s.note n).site = s.site.emit none [.note n] := rfl

@[simp] theorem cancel_site : (s.cancel id).site = s.site := by
  unfold cancel
  split <;> rfl

@[simp] theorem cancelLaunched_site : (s.cancelLaunched id).site = s.site := by
  unfold cancelLaunched
  split
  · split <;> simp
  · rfl

end

@[simp] theorem drop_site (s : Service) (id : Nat) : (s.drop id).site = s.site := by
  unfold drop
  split
  · split <;> simp
  · rfl

theorem register_adds (s : Service) (r : ExecuteRequest) :
    ∃ es, s.site.Adds (s.register r).site none es ∧ ∀ e ∈ es, e.isMilestone = false := by
  unfold register
  cases s.running.get? r.traceId with
  | none => exact ⟨[], .refl _ _, by simp⟩
  | some p =>
    refine ⟨[.note .superseding], ?_, by simp [Effect.isMilestone]⟩
    simp only [cancel_site, note_site]
    exact Site.adds_emit _ _ _

theorem stop_adds (s : Service) (r : StopRequest) :
    ∃ es, s.site.Adds (s.stop r).site none es ∧ ∀ e ∈ es, e.isMilestone = false := by
  have noted (n : Notice) (h : (Effect.note n).isMilestone = false) :
      ∃ es, s.site.Adds (s.note n).site none es ∧ ∀ e ∈ es, e.isMilestone = false :=
    ⟨[.note n], Site.adds_emit _ _ _, by simpa using h⟩
  unfold stop
  split
  · exact noted _ rfl
  · exact noted _ rfl
  · simpa only [cancel_site] using noted .stopping rfl

theorem handle_adds (s : Service) (c : Command) :
    ∃ es, s.site.Adds (s.handle c).2.site none es ∧ ∀ e ∈ es, e.isMilestone = false := by
  have received : s.site.Adds (s.note .eventReceived).site none [.note .eventReceived] :=
    Site.adds_emit _ _ _
  have later {s' : Service} (h : ∃ es, (s.note .eventReceived).site.Adds s'.site none es ∧
      ∀ e ∈ es, e.isMilestone = false) :
      ∃ es, s.site.Adds s'.site none es ∧ ∀ e ∈ es, e.isMilestone = false := by
    obtain ⟨es, ha, hm⟩ := h
    exact ⟨_, received.trans ha, by simpa [Effect.isMilestone] using hm⟩
  cases c with
  | isAlive => exact later ⟨[], .refl _ _, by simp⟩
  | execute r => exact later (register_adds _ r)
  | stop r => exact later (stop_adds _ r)

theorem Feeds.adds {s s' : Service} {id : Nat} {x x' : Served} {shown : Polled}
    (h : Feeds s id x shown x' s') :
    ∃ es, s.site.Adds s'.site (some id) es ∧ ∀ e ∈ es, e.isMilestone = false := by
  refine h.keeps (P := fun _ site =>
    ∃ es, s.site.Adds site (some id) es ∧ ∀ e ∈ es, e.isMilestone = false) ?_ ?_ ?_
  · intro shown t hp
    exact hp.adds
  · intro t _ ht
    rwa [close_site]
  · exact ⟨[], .refl _ _, by simp⟩

theorem adds_act (s : Service) (e : Step) :
    ∃ es, s.site.Adds (s.act e).site e.action.subject? es ∧
      ((∀ i, e.action ≠ .task i ∧ e.action ≠ .work i) → ∀ f ∈ es, f.isMilestone = false) := by
  have quiet {s' : Service} {who : Option Nat}
      (h : ∃ es, s.site.Adds s'.site who es ∧ ∀ f ∈ es, f.isMilestone = false) {p : Prop} :
      ∃ es, s.site.Adds s'.site who es ∧ (p → ∀ f ∈ es, f.isMilestone = false) := by
    obtain ⟨es, ha, hm⟩ := h
    exact ⟨es, ha, fun _ => hm⟩
  have still {s' : Service} {who : Option Nat} (h : s'.site = s.site) :
      ∃ es, s.site.Adds s'.site who es ∧ ∀ f ∈ es, f.isMilestone = false :=
    ⟨[], by rw [h]; exact .refl _ _, by simp⟩
  unfold act
  cases ha : e.action with
  | handle c => exact quiet (handle_adds s c)
  | launch r b => exact quiet (still rfl)
  | cancel i => exact quiet (still (cancelLaunched_site s i))
  | wait now => exact ⟨[], ⟨by simp [waitUntil], fun h => h⟩, by simp⟩
  | poll i =>
    refine quiet ?_
    cases hx : s.served[i]? with
    | none => exact still (by simp [poll, hx])
    | some x =>
      obtain ⟨x', hp⟩ := feeds_poll hx
      exact hp.adds
  | drop i => exact quiet (still (drop_site s i))
  | task i =>
    cases hx : s.served[i]? with
    | none => exact quiet (still (by simp [stepTask, hx]))
    | some x =>
      obtain ⟨es, hs⟩ := (taskSteps_stepTask e.engine i x.cancelled (s.turn x)).adds
      exact ⟨es, by simpa [stepTask, hx, Action.subject?] using hs, fun h => absurd rfl (h i).1⟩
  | work i =>
    cases hx : s.served[i]? with
    | none => exact quiet (still (by simp [stepWork, hx]))
    | some x =>
      obtain ⟨es, hs, -⟩ := (workSteps_stepWork e.engine i (s.turn x)).adds
      exact ⟨es, by simpa [stepWork, hx, Action.subject?] using hs, fun h => absurd rfl (h i).2⟩

/-- Whoever passes a milestone is one of the executions of the service. -/
def Owned (s : Service) : Prop :=
  ∀ ⦃who : Option Nat⦄ ⦃f : Effect⦄, (who, f) ∈ s.site.journal → f.isMilestone = true →
    ∃ id < s.served.length, who = some id

theorem owned_start (g : Engine) (models : List LanguageModel) : (start g models).Owned := by
  have hn : ∀ f ∈ (startNotices g.config).map Effect.note, f.isMilestone = false := by
    unfold startNotices
    split <;> simp [Effect.isMilestone]
  intro who f hf hm
  simp only [start, Site.emit, Site.ofModels, List.nil_append, List.mem_map, Prod.mk.injEq] at hf
  obtain ⟨f', hf, -, rfl⟩ := hf
  rw [hn f' (by simpa using hf)] at hm
  cases hm

theorem owned_act {s : Service} (h : s.Owned) (e : Step) : (s.act e).Owned := by
  intro who f hf hm
  obtain ⟨es, ha, hq⟩ := adds_act s e
  have grown {i : Nat} (hi : i < s.served.length) : i < (s.act e).served.length := by
    rw [act_length]
    omega
  have kept (hf : (who, f) ∈ s.site.journal) : ∃ id < (s.act e).served.length, who = some id := by
    obtain ⟨id, hid, hw⟩ := h hf hm
    exact ⟨id, grown hid, hw⟩
  have hmem := hf
  rw [ha.journal, List.mem_append] at hmem
  rcases hmem with hmem | hmem
  · exact kept hmem
  · obtain ⟨f', hf', heq⟩ := List.mem_map.mp hmem
    cases heq
    have hi : ∃ i, e.action = .task i ∨ e.action = .work i := by
      by_contra hn
      rw [hq (fun i => ⟨fun hi => hn ⟨i, .inl hi⟩, fun hi => hn ⟨i, .inr hi⟩⟩) f hf'] at hm
      cases hm
    obtain ⟨i, hi⟩ := hi
    have hs : e.action.subject? = some i := by rcases hi with hi | hi <;> rw [hi] <;> rfl
    by_cases hlt : i < s.served.length
    · exact ⟨i, grown hlt, hs⟩
    · -- nobody takes a step that is not there
      have hstill : s.act e = s := act_absent (List.getElem?_eq_none (Nat.le_of_not_lt hlt)) hs
      exact kept (hstill ▸ hf)

theorem owned_run (g : Engine) (models : List LanguageModel) (es : List Step) :
    ((start g models).run es).Owned := by
  induction es using List.reverseRecOn with
  | nil => exact owned_start g models
  | append_singleton es e ih => simpa using owned_act ih e

theorem effectsOf_absent (g : Engine) (models : List LanguageModel) {es : List Step} {id : Nat}
    (h : ((start g models).run es).served.length ≤ id) :
    ((start g models).run es).site.effectsOf id = [] := by
  induction es using List.reverseRecOn with
  | nil =>
    unfold Site.effectsOf
    rw [List.filterMap_eq_nil_iff]
    intro f hf
    obtain ⟨n, -, rfl⟩ : ∃ n ∈ startNotices g.config, f = (none, .note n) := by
      simpa [start, Site.emit, Site.ofModels, eq_comm] using hf
    rfl
  | append_singleton es e ih =>
    rw [run_append, run_cons, run_nil] at h ⊢
    rw [act_length] at h
    have hid : ((start g models).run es).served.length ≤ id := by omega
    obtain ⟨fs, ha, -⟩ := adds_act ((start g models).run es) e
    by_cases hs : e.action.subject? = some id
    · rw [act_absent (List.getElem?_eq_none hid) hs]
      exact ih hid
    · rw [ha.effectsOf, ih hid, if_neg hs]
      rfl

theorem Owned.milestones_absent {s : Service} (h : s.Owned) {id : Nat}
    (hid : s.served.length ≤ id) : s.site.milestones id = [] := by
  unfold Site.milestones Site.effectsOf
  rw [List.filter_eq_nil_iff]
  intro f hf hm
  obtain ⟨⟨who, f'⟩, hmem, hwho⟩ := List.mem_filterMap.mp hf
  split at hwho
  · rename_i hw
    cases hwho
    obtain ⟨i, hi, hown⟩ := h hmem hm
    simp only at hw
    rw [hw] at hown
    cases hown
    omega
  · cases hwho

end Service

end NodeRun
