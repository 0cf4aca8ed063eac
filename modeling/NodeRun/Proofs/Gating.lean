import NodeRun.Proofs.Flushing

namespace NodeRun

namespace Effect

def forwarded? : Effect → Option (Table Json)
  | forwardStarted inputs => some inputs
  | _ => none

theorem isMilestone_of_forwarded? {e : Effect} {inputs : Table Json}
    (h : e.forwarded? = some inputs) : e.isMilestone = true := by
  cases e <;> simp_all [forwarded?, isMilestone]

end Effect

namespace Site

def forwarded (s : Site) (id : Nat) : List (Table Json) :=
  (s.effectsOf id).filterMap Effect.forwarded?

theorem forwarded_eq (s : Site) (id : Nat) :
    s.forwarded id = (s.milestones id).filterMap Effect.forwarded? :=
  (filterMap_milestones Effect.isMilestone_of_forwarded? s id).symm

end Site

namespace Compiler

def Endures (c : Compiler) (r : ExecuteRequest) : Prop :=
  ∀ n m, Execution.target r = .ok n → (c.compile n r.workflow).1 ≠ .panic m

end Compiler

namespace Stage

/-- The token has not been looked at since the node was found. -/
def IsUnstarted (s : Stage) : Prop := s = .idle ∨ s = .waiting ∨ s = .announced

end Stage

namespace Task

/-- The token has not been looked at since the inputs were parsed. -/
def IsUnlaunched (k : Task) : Prop :=
  k = .absent ∨ k = .opening ∨ (∃ guard, k = .compiling guard) ∨
    (∃ guard m, k = .parsing guard m) ∨ ∃ guard m inputs, k = .launching guard m inputs

end Task

namespace Execution

def tracerPanic? (g : Engine) (t : Turn) : Option String :=
  match t.self.task with
  | .opening => openPanic? g t.self.request
  | .compiling guard => guard.panic? t.site g.tracer .tracking
  | .flushing guard _ => guard.panic? t.site g.tracer .flushing
  | _ => none

/-- There is no task, and the stream is at no point from which it would begin one. -/
structure Withheld (x : Execution) : Prop where
  task : x.task = .absent
  stage : x.stage.IsUnstarted ∨ x.stage.IsOver

/-- The module is not running, and the task is at no point from which it would start it. -/
structure Barred (c : Bool) (x : Execution) : Prop where
  stopped : Execution.stopped c x = true
  work : x.work = .absent
  task : ∀ guard, x.task ≠ .invoking guard

def Doomed (panics : String → Prop) (x : Execution) : Prop :=
  ∀ reply, x.task = .ended reply → reply = .error .cancelled ∨ ∃ m, reply = .panic m ∧ panics m

section

variable {g : Engine} {id : Nat} {c c' : Bool} {t t' : Turn} {shown : Polled} {r : ExecuteRequest}
  {s : Site} {b : Bool} {w : Work} {k : Task} {es opens starts reports : List Effect}
  {guard : Guard} {result : Except Error Prediction}

theorem Entered.unforwarded (h : Entered r s opens guard) :
    opens.filterMap Effect.forwarded? = [] := by
  cases h <;> rename_i hes <;> subst hes <;> rfl

theorem Reported.unforwarded (h : Reported r b result reports) :
    reports.filterMap Effect.forwarded? = [] := by
  cases h <;> rename_i hes <;> subst hes <;> rfl

theorem closing_unforwarded (opens : List Effect) :
    (closing opens).filterMap Effect.forwarded? = [] := by
  unfold closing
  rw [List.filterMap_filterMap, List.filterMap_eq_nil_iff]
  intro e _
  cases e.options? <;> rfl

inductive Launches (r : ExecuteRequest) : Work → List (Table Json) → Prop where
  | never {w : Work} : Launches r w []
  | once {w : Work} {inputs : Table Json} (hw : w ≠ .absent) (hi : parsed r = .ok inputs) :
    Launches r w [inputs]

theorem Forwarded.launches (h : Forwarded r starts w) :
    Launches r w (starts.filterMap Effect.forwarded?) := by
  cases h with
  | absent hes => exact hes ▸ .never
  | ready _ hes => exact hes ▸ .never
  | calling hi hes => exact hes ▸ .once (by simp) hi
  | ended hi hes => exact hes ▸ .once (by simp) hi
  | unstarted hes => exact hes ▸ .never
  | aborted hi hes => exact hes ▸ .once (by simp) hi

theorem Reached.launches (h : Reached id r s b w es k) :
    Launches r w (es.filterMap Effect.forwarded?) := by
  induction h with
  | absent _ hes => exact hes ▸ .never
  | opening _ hes => exact hes ▸ .never
  | compiling _ he => exact he.unforwarded ▸ .never
  | parsing _ he => exact he.unforwarded ▸ .never
  | launching _ he => exact he.unforwarded ▸ .never
  | invoking he hf hes => simpa [hes, he.unforwarded] using hf.launches
  | reporting he hf _ hes => simpa [hes, he.unforwarded] using hf.launches
  | flushing he hf _ hr hes => simpa [hes, he.unforwarded, hr.unforwarded] using hf.launches
  | settling he hf _ hr hes =>
    simpa [hes, he.unforwarded, hr.unforwarded, closing_unforwarded] using hf.launches
  | stopped he hf _ hr hes =>
    simpa [hes, he.unforwarded, hr.unforwarded, closing_unforwarded] using hf.launches
  | settled he hf _ hr hes =>
    simpa [hes, he.unforwarded, hr.unforwarded, closing_unforwarded] using hf.launches
  | panicked _ _ ih => exact ih

theorem Reached.unlaunched (h : Reached id r s b w es k) (hk : k.IsUnlaunched) : w = .absent := by
  rcases hk with rfl | rfl | ⟨guard, rfl⟩ | ⟨guard, m, rfl⟩ | ⟨guard, m, inputs, rfl⟩
  · cases h with | absent hw => exact hw
  · cases h with | opening hw => exact hw
  · cases h with | compiling hw => exact hw
  · cases h with | parsing hw => exact hw
  · cases h with | launching hw => exact hw

theorem Withheld.close (h : Withheld t.self) : Withheld (close id t).self := by
  rw [close_self]
  exact ⟨h.task, .inr (.inr (.inl rfl))⟩

theorem Withheld.poll (h : Withheld t.self) (hp : Polls id true t shown t') :
    Withheld t'.self := by
  have hs := h.stage
  cases hp with
  | admitted _ hc => cases hc
  | granted _ hc => cases hc
  | begun _ _ hc => cases hc
  | exhausted => exact h.close
  | refused => exact ⟨h.task, .inr (.inr (.inr ⟨_, rfl⟩))⟩
  | left => exact ⟨h.task, .inr (.inr (.inr ⟨_, rfl⟩))⟩
  | untargeted => exact ⟨h.task, .inr (.inr (.inr ⟨_, rfl⟩))⟩
  | halted => exact ⟨h.task, .inr (.inr (.inr ⟨_, rfl⟩))⟩
  | queued => exact ⟨h.task, .inl (.inr (.inl rfl))⟩
  | waited => exact h
  | closed => exact h
  | _ => simp_all [Stage.IsUnstarted, Stage.IsOver]

theorem Barred.close (h : Barred c t.self) : Barred c (close id t).self := by
  rw [close_self]
  refine ⟨?_, h.work, h.task⟩
  simpa [Execution.stopped] using (Bool.or_eq_true _ _ ▸ h.stopped).imp_right .inl

theorem Barred.poll (h : Barred c t.self) (hp : Polls id c t shown t') : Barred c t'.self := by
  cases hp with
  | exhausted => exact h.close
  | spawned => exact ⟨h.stopped, h.work, by simp⟩
  | _ => exact ⟨h.stopped, h.work, h.task⟩

theorem Barred.taskStep (h : Barred c t.self) (hs : TaskSteps g id c t t') : Barred c t'.self := by
  have hstopped : Execution.stopped c t'.self = true := by
    rw [hs.self_eq]
    exact h.stopped
  cases hs with
  | launched _ hs => simp [h.stopped] at hs
  | replied hk => exact absurd hk (h.task _)
  | unreplied hk => exact absurd hk (h.task _)
  | aborted hk => exact absurd hk (h.task _)
  | absent => exact h
  | ended => exact h
  | _ => exact ⟨hstopped, h.work, by simp⟩

theorem Faultless.endures (hg : Faultless g) (r : ExecuteRequest) : g.compiler.Endures r :=
  fun n m _ => hg.compiler n _ m

theorem Calm.tracerPanic?_eq (hg : Calm g) (t : Turn) : tracerPanic? g t = none := by
  unfold tracerPanic?
  split
  · exact hg.openPanic?_eq _
  · exact hg.guardPanic?_eq _ _ _
  · exact hg.guardPanic?_eq _ _ _
  · rfl

theorem Doomed.mono {p q : String → Prop} {x : Execution} (h : Doomed p x)
    (hpq : ∀ m, p m → q m) : Doomed q x := fun reply hk =>
  (h reply hk).imp_right fun ⟨m, hm, hp⟩ => ⟨m, hm, hpq m hp⟩

theorem Doomed.poll {p : String → Prop} (h : Doomed p t.self) (hp : Polls id c t shown t') :
    Doomed p t'.self := by
  cases hp with
  | exhausted =>
    rw [close_self]
    exact h
  | spawned =>
    intro reply hk
    cases hk
  | _ => exact h

/-- A task whose token is cancelled can end in no other way but by a panic of the tracer. -/
theorem Doomed.taskStep {p : String → Prop} (h : Doomed p t.self) (hs : TaskSteps g id true t t')
    (hb : g.compiler.Endures t.self.request) :
    Doomed (fun m => p m ∨ tracerPanic? g t = some m) t'.self := by
  have hrun : Execution.stopped true t.self = true := rfl
  have kept : Doomed (fun m => p m ∨ tracerPanic? g t = some m) t.self := h.mono fun _ => .inl
  cases hs with
  | absent => exact kept
  | ended => exact kept
  | unreplied => exact kept
  | openPanicked hk hp =>
    rintro reply ⟨⟩
    exact .inr ⟨_, rfl, .inr (by simpa [tracerPanic?, hk] using hp)⟩
  | trackPanicked hk hp =>
    rintro reply ⟨⟩
    exact .inr ⟨_, rfl, .inr (by simpa [tracerPanic?, hk] using hp)⟩
  | flushPanicked hk hp =>
    rintro reply ⟨⟩
    exact .inr ⟨_, rfl, .inr (by simpa [tracerPanic?, hk] using hp)⟩
  | buildPanicked _ _ ht hc => exact absurd (congrArg Prod.fst hc) (hb _ _ ht)
  | reportPanicked _ _ hs => simp [hrun] at hs
  | settled _ hs => simp [hrun] at hs
  | stopped =>
    rintro reply ⟨⟩
    exact .inl rfl
  | _ =>
    intro reply hk
    cases hk

theorem TaskSteps.eq_of_still_absent (hs : TaskSteps g id c t t') (hk : t'.self.task = .absent) :
    t' = t := by
  cases hs with
  | absent => rfl
  | ended => rfl
  | unreplied => rfl
  | _ => cases hk

theorem Polls.notes (hp : Polls id c t shown t') (hk : ∀ reply, t.self.task ≠ .ended reply) :
    ∃ es, t.site.Adds t'.site (some id) es ∧ ∀ f ∈ es, f = .note .executing := by
  cases hp with
  | admitted => exact ⟨_, Site.adds_emit _ _ [.note .executing], by simp⟩
  | granted => exact ⟨_, Site.adds_emit _ _ [.note .executing], by simp⟩
  | succeeded _ h => exact absurd h (hk _)
  | exhausted => exact ⟨[], by rw [close_site]; exact .refl _ _, by simp⟩
  | _ => exact ⟨[], .refl _ _, by simp⟩

theorem Polls.unspawned (hp : Polls id c t shown t') (hk : t'.self.task = .absent) :
    t.self.task = .absent := by
  cases hp with
  | spawned => cases hk
  | exhausted => simpa [close_self] using hk
  | _ => exact hk

structure Ended (reply : Reply Prediction) (x : Execution) : Prop where
  task : x.task = .ended reply
  stage : x.stage = .awaiting ∨ x.stage.IsOver

theorem Ended.poll {reply : Reply Prediction} (h : Ended reply t.self)
    (hp : Polls id c t shown t') : Ended reply t'.self := by
  obtain ⟨hk, hs⟩ := h
  cases hp with
  | exhausted =>
    rw [close_self]
    exact ⟨hk, .inr (.inr (.inl rfl))⟩
  | succeeded => exact ⟨hk, .inr (.inl rfl)⟩
  | failed => exact ⟨hk, .inr (.inr (.inr ⟨_, rfl⟩))⟩
  | panicked => exact ⟨hk, .inr (.inr (.inr ⟨_, rfl⟩))⟩
  | unsettled => exact ⟨hk, hs⟩
  | closed => exact ⟨hk, hs⟩
  | waited => exact ⟨hk, hs⟩
  | _ => simp_all [Stage.IsOver]

end

end Execution

def Tracer.collapsing : Tracer :=
  { Tracer.noop with
    panic? := fun call =>
      match call with
      | .flushing _ => some "boom"
      | _ => none }

def Engine.collapsing : Engine := { Engine.bare with tracer := .collapsing }

def Action.late : List Action :=
  .launch (.ofTerminal "t" "end") false ::
    ((Action.toEnd 0).take 9 ++ [.cancel 0] ++ List.replicate 3 (.task 0) ++ [.poll 0])

namespace Service

open Execution

def TracerPanics (s : Service) (es : List Step) (id : Nat) (m : String) : Prop :=
  ∃ pre e x, Takes es pre e ∧ e.action = .task id ∧ (s.run pre).served[id]? = some x ∧
    tracerPanic? e.engine ((s.run pre).turn x) = some m

section

variable {s s' : Service} {e : Step} {id : Nat} {x x' : Served} {shown : Polled}

theorem TracerPanics.mono {es fs : List Step} {m : String} (h : s.TracerPanics es id m)
    (hp : es <+: fs) : s.TracerPanics fs id m := by
  obtain ⟨pre, e, x, ht, h⟩ := h
  exact ⟨pre, e, x, List.IsPrefix.trans ht hp, h⟩

theorem not_tracerPanics {es : List Step}
    (hg : ∀ f ∈ es, f.action = .task id → Calm f.engine) (m : String) :
    ¬ s.TracerPanics es id m := by
  rintro ⟨pre, f, x, ht, ha, -, hp⟩
  have hf : f ∈ es := List.IsPrefix.mem (by simp) ht
  simp [(hg f hf ha).tracerPanic?_eq] at hp

theorem Moves.keeps {P : Bool → Execution → Prop}
    (cancel : ∀ {y c c'}, (c = true → c' = true) → P c y → P c' y)
    (poll : ∀ {c shown} {t t' : Turn}, Polls id c t shown t' → P c t.self → P c t'.self)
    (close : ∀ {c} {t : Turn}, P c t.self → P c (close id t).self)
    (task : ∀ {c} {t t' : Turn}, TaskSteps e.engine id c t t' → P c t.self → P c t'.self)
    (work : ∀ {c} {t t' : Turn}, WorkSteps e.engine id t t' → P c t.self → P c t'.self)
    (hm : Moves s e id x x') (h : P x.cancelled x.execution) : P x'.cancelled x'.execution := by
  cases hm with
  | rested => exact cancel (fun hc => by simp [hc]) h
  | undropped => exact h
  | dropped => exact close (t := s.turn x) h
  | tasked => exact task (taskSteps_stepTask e.engine id x.cancelled (s.turn x)) h
  | worked => exact work (workSteps_stepWork e.engine id (s.turn x)) h
  | polled _ hf =>
    rw [hf.cancelled_eq]
    refine hf.keeps (P := fun y _ => P x.cancelled y) ?_ ?_ h
    · intro shown t hp
      exact poll (t := s.turn x) hp h
    · intro t _ ht
      exact close ht

theorem Feeds.quiet (hf : Feeds s id x shown x' s') (hk : x'.execution.task = .absent)
    (h : x.execution.task = .absent → ∀ f ∈ s.site.effectsOf id, f = .note .executing) :
    ∀ f ∈ s'.site.effectsOf id, f = .note .executing := by
  refine hf.keeps (P := fun y site => y.task = .absent →
    ∀ f ∈ site.effectsOf id, f = .note .executing) ?_ ?_ h hk
  · intro shown t hp hk
    have hk' : x.execution.task = .absent := hp.unspawned hk
    obtain ⟨es, ha, hes⟩ := hp.notes (by simp [hk'])
    intro f hf
    rw [ha.effectsOf, if_pos rfl, List.mem_append] at hf
    exact hf.elim (h hk' f) (hes f)
  · intro t _ ht
    simpa [close_self, close_site] using ht

/-- Only a task calls collaborators, and there is no work without a task. -/
theorem Moves.quiet (hx : s.served[id]? = some x) (hm : Moves s e id x x')
    (hr : x.execution.Marked s.site id x.cancelled) (hk : x'.execution.task = .absent)
    (h : x.execution.task = .absent → ∀ f ∈ s.site.effectsOf id, f = .note .executing) :
    ∀ f ∈ (s.act e).site.effectsOf id, f = .note .executing := by
  cases hm with
  | rested hs =>
    obtain ⟨es, ha, -⟩ := adds_act s e
    rw [ha.effectsOf, if_neg hs, List.append_nil]
    exact h hk
  | polled ha hf hs =>
    simp only [act, ha, hs]
    exact hf.quiet hk h
  | dropped ha =>
    have hk : x.execution.task = .absent := by simpa [close_self] using hk
    simpa [act, ha] using h hk
  | undropped ha => simpa [act, ha] using h hk
  | tasked ha =>
    have hs := taskSteps_stepTask e.engine id x.cancelled (s.turn x)
    have hsame := hs.eq_of_still_absent hk
    rw [hsame] at hk
    simpa [act, ha, stepTask, hx, hsame] using h hk
  | worked ha =>
    have hs := workSteps_stepWork e.engine id (s.turn x)
    rw [hs.self_eq] at hk
    have hk : x.execution.task = .absent := hk
    have hsame := hs.eq_of_over (hr.reached.isOver (by simp [hk]))
    simpa [act, ha, stepWork, hx, hsame] using h hk

theorem Moves.doomed {r : ExecuteRequest} {p : String → Prop} (hm : Moves s e id x x')
    (hc : x.cancelled = true) (hr : x.execution.request = r)
    (hb : e.action = .task id → e.engine.compiler.Endures r) (h : Doomed p x.execution) :
    Doomed (fun m => p m ∨ (e.action = .task id ∧ tracerPanic? e.engine (s.turn x) = some m))
      x'.execution := by
  have kept : Doomed (fun m => p m ∨
      (e.action = .task id ∧ tracerPanic? e.engine (s.turn x) = some m)) x.execution :=
    h.mono fun _ => .inl
  cases hm with
  | rested => exact kept
  | undropped => exact kept
  | dropped =>
    rw [close_self]
    exact kept
  | polled _ hf =>
    refine hf.keeps (P := fun y _ => Doomed _ y) ?_ ?_ kept
    · intro shown t hp
      exact Doomed.poll (t := s.turn x) kept hp
    · intro t _ ht
      rw [close_self]
      exact ht
  | tasked ha =>
    have hs := taskSteps_stepTask e.engine id x.cancelled (s.turn x)
    rw [hc] at hs
    have ht := Doomed.taskStep (t := s.turn x) h hs (by rw [turn_self, hr]; exact hb ha)
    rw [hc]
    exact ht.mono fun m hm => hm.imp_right fun hp => ⟨ha, hp⟩
  | worked =>
    rw [(workSteps_stepWork e.engine id (s.turn x)).self_eq]
    exact kept

end

section

variable {g : Engine} {models : List LanguageModel} {es pre : List Step} {e : Step} {id : Nat}
  {x y : Served} {shown : Polled}

theorem quiet_run (hx : ((start g models).run es).served[id]? = some x)
    (hk : x.execution.task = .absent) :
    ∀ f ∈ ((start g models).run es).site.effectsOf id, f = .note .executing := by
  revert hk
  refine run_induction (motive := fun es id x => x.execution.task = .absent →
    ∀ f ∈ ((start g models).run es).site.effectsOf id, f = .note .executing) ?_ ?_ hx
  · intro es e x ha _
    obtain ⟨hs, -⟩ := of_arrival ha
    obtain ⟨fs, hadds, -⟩ := adds_act ((start g models).run es) e
    rw [run_append, run_cons, run_nil, hadds.effectsOf,
      effectsOf_absent g models (Nat.le_refl _), if_neg (by simp [hs])]
    simp
  · intro es e id x x' hx hm ih hk
    rw [run_append, run_cons, run_nil]
    exact hm.quiet hx (marked_run hx) hk ih

theorem kept_run {P : Bool → Execution → Prop}
    (keeps : ∀ {s : Service} {e : Step} {x x' : Served}, Moves s e id x x' →
      P x.cancelled x.execution → P x'.cancelled x'.execution)
    (hx : ((start g models).run es).served[id]? = some x) (hpre : pre <+: es)
    (hy : ((start g models).run pre).served[id]? = some y) (h : P y.cancelled y.execution) :
    P x.cancelled x.execution := by
  obtain ⟨post, rfl⟩ := hpre
  rw [run_append] at hx
  obtain ⟨x', hx', hp⟩ := run_keeps (P := fun _ z => P z.cancelled z.execution) hy h
    (fun _ hm => keeps hm) post
  obtain rfl := Option.some.inj (hx.symm.trans hx')
  exact hp

theorem request_run (hx : ((start g models).run es).served[id]? = some x) (hpre : pre <+: es)
    (hy : ((start g models).run pre).served[id]? = some y) :
    x.execution.request = y.execution.request :=
  kept_run (P := fun _ z => z.request = y.execution.request)
    (fun hm h => hm.carried.request.trans h) hx hpre hy rfl

theorem withheld_run (hx : ((start g models).run es).served[id]? = some x) (hpre : pre <+: es)
    (hy : ((start g models).run pre).served[id]? = some y) (hc : y.cancelled = true)
    (hs : y.execution.stage.IsUnstarted) : x.execution.task = .absent := by
  have hk : y.execution.task = .absent := by
    have hh := (marked_run hy).handed
    rcases hs with hs | hs | hs <;> simpa [hs, Stage.IsOver] using hh
  refine (kept_run (P := fun c z => c = true ∧ Withheld z) ?_ hx hpre hy ⟨hc, hk, .inl hs⟩).2.task
  intro s e x x' hm h
  refine hm.keeps (P := fun c z => c = true ∧ Withheld z) ?_ ?_ ?_ ?_ ?_ h
  · intro z c c' hc h
    exact ⟨hc h.1, h.2⟩
  · rintro c shown t t' hp ⟨rfl, h⟩
    exact ⟨rfl, h.poll hp⟩
  · intro c t h
    exact ⟨h.1, h.2.close⟩
  · intro c t t' hs h
    rw [hs.eq_of_absent h.2.task]
    exact h
  · intro c t t' hs h
    rw [hs.self_eq]
    exact ⟨h.1, h.2.task, h.2.stage⟩

theorem barred_run (hx : ((start g models).run es).served[id]? = some x) (hpre : pre <+: es)
    (hy : ((start g models).run pre).served[id]? = some y)
    (hs : Execution.stopped y.cancelled y.execution = true) (hk : y.execution.task.IsUnlaunched) :
    x.execution.work = .absent := by
  have hw := (marked_run hy).reached.unlaunched hk
  have hne : ∀ guard, y.execution.task ≠ .invoking guard := by
    rintro guard hg
    simp [Task.IsUnlaunched, hg] at hk
  refine (kept_run (P := Barred) ?_ hx hpre hy ⟨hs, hw, hne⟩).work
  intro s e x x' hm h
  refine hm.keeps ?_ ?_ ?_ ?_ ?_ h
  · intro z c c' hc h
    refine ⟨?_, h.work, h.task⟩
    simpa [Execution.stopped] using (Bool.or_eq_true _ _ ▸ h.stopped).imp_left hc
  · exact fun hp h => h.poll hp
  · exact fun h => h.close
  · exact fun hs h => h.taskStep hs
  · intro c t t' hs h
    rw [hs.eq_of_over (.inl h.work)]
    exact h

theorem ended_run {reply : Reply Prediction}
    (hx : ((start g models).run es).served[id]? = some x) (hpre : pre <+: es)
    (hy : ((start g models).run pre).served[id]? = some y)
    (hk : y.execution.task = .ended reply) : x.execution.task = .ended reply := by
  have hs : y.execution.stage = .awaiting ∨ y.execution.stage.IsOver :=
    (marked_run hy).handed.resolve_left (by simp [hk])
  refine (kept_run (P := fun _ => Ended reply) ?_ hx hpre hy ⟨hk, hs⟩).task
  intro s e x x' hm h
  refine hm.keeps (P := fun _ => Ended reply) ?_ ?_ ?_ ?_ ?_ h
  · exact fun _ h => h
  · exact fun hp h => h.poll hp
  · intro c t h
    rw [close_self]
    exact ⟨h.task, .inr (.inr (.inl rfl))⟩
  · intro c t t' hs h
    rw [hs.eq_of_ended h.task]
    exact h
  · intro c t t' hs h
    rw [hs.self_eq]
    exact ⟨h.task, h.stage⟩

theorem doomed_run (hx : ((start g models).run es).served[id]? = some x) (hpre : pre <+: es)
    (hy : ((start g models).run pre).served[id]? = some y) (hc : y.cancelled = true)
    (hk : ∀ reply, y.execution.task ≠ .ended reply)
    (hb : ∀ f ∈ es, f.action = .task id → f.engine.compiler.Endures x.execution.request) :
    Doomed (TracerPanics (start g models) es id) x.execution := by
  have hr := (request_run hx hpre hy).symm
  obtain ⟨post, rfl⟩ := hpre
  rw [run_append] at hx
  have keeps : ∀ {fs : List Step} {e : Step} {z z' : Served},
      (((start g models).run pre).run fs).served[id]? = some z →
      Moves (((start g models).run pre).run fs) e id z z' →
      ((∀ f ∈ fs, f.action = .task id → f.engine.compiler.Endures x.execution.request) →
        z.cancelled = true ∧ z.execution.request = x.execution.request ∧
        Doomed (TracerPanics (start g models) (pre ++ fs) id) z.execution) →
      (∀ f ∈ fs ++ [e], f.action = .task id → f.engine.compiler.Endures x.execution.request) →
        z'.cancelled = true ∧ z'.execution.request = x.execution.request ∧
        Doomed (TracerPanics (start g models) (pre ++ (fs ++ [e])) id) z'.execution := by
    intro fs e z z' hz hm ih hb
    obtain ⟨hc, hr, hd⟩ := ih fun f hf => hb f (List.mem_append_left _ hf)
    have hd' := hm.doomed hc hr (hb e (by simp)) hd
    rw [← run_append] at hz hd'
    rw [← List.append_assoc]
    refine ⟨hm.carried.cancelled hc, hm.carried.request.trans hr, hd'.mono ?_⟩
    rintro m (hpanics | ⟨ha, hp⟩)
    · exact hpanics.mono (List.prefix_append _ _)
    · exact ⟨_, _, _, List.prefix_rfl, ha, hz, hp⟩
  obtain ⟨x', hx', h⟩ := run_keeps hy
    (fun _ => ⟨hc, hr, fun reply h => absurd h (hk reply)⟩) keeps post
  obtain rfl := Option.some.inj (hx.symm.trans hx')
  exact (h fun f hf => hb f (List.mem_append_right pre hf)).2.2

theorem started_of_items (hx : ((start g models).run es).served[id]? = some x) {ev : Event}
    (hev : .ok ev ∈ (start g models).items id es) (hs : IsStart x.execution.request ev) :
    x.execution.stage = .started ∨ x.execution.stage = .awaiting ∨ x.execution.stage.IsOver := by
  have hne : ev ≠ announcement := by
    rintro rfl
    obtain ⟨_, _, h, -⟩ := hs
    cases h
  have hsaid := (told_run hx).said
  generalize (start g models).items id es = items at hev hsaid
  generalize x.execution.stage = stage at hsaid
  cases hsaid with
  | idle => simp at hev
  | waiting => simp at hev
  | announced => exact absurd (by simpa using hev) hne
  | started => exact .inl rfl
  | awaiting => exact .inr (.inl rfl)
  | failed => exact .inr (.inr (.inr (.inr ⟨_, rfl⟩)))
  | succeeded => exact .inr (.inr (.inl rfl))
  | closed => exact .inr (.inr (.inr (.inl rfl)))
  | dropped => exact .inr (.inr (.inr (.inl rfl)))

theorem last_of_cancelled
    (hb : ∀ f ∈ es, f.action = .task id → f.engine.compiler.Endures x.execution.request)
    (hx : ((start g models).run es).served[id]? = some x) (hpre : pre <+: es)
    (hy : ((start g models).run pre).served[id]? = some y) (hc : y.cancelled = true)
    (hk : ∀ reply, y.execution.task ≠ .ended reply) {fore : List Step} (ht : Takes es fore e)
    (hshown : stream id ((start g models).run fore) e = some shown) (hl : shown.isLast = true) :
    (∃ err, shown = .failure err) ∧
      ((∃ ev, .ok ev ∈ (start g models).items id fore ∧ IsStart x.execution.request ev) →
        shown = .failure .cancelled ∨
          ∃ m, shown = .failure (taskPanic id m) ∧ (start g models).TracerPanics es id m) := by
  obtain ⟨z, t, hz, hp, -⟩ := last_run ht hshown hl
  have hr := (request_run hx ht.before hz).symm
  -- A task that is over when its stream shows that was over only after the token was cancelled.
  have doomed {reply : Reply Prediction} (hk' : z.execution.task = .ended reply) :
      reply = .error .cancelled ∨ ∃ m, reply = .panic m ∧
        (start g models).TracerPanics es id m := by
    rcases List.prefix_or_prefix_of_prefix hpre ht.before with hle | hle
    · have hb' : ∀ f ∈ fore, f.action = .task id →
          f.engine.compiler.Endures z.execution.request := by
        intro f hf
        rw [hr]
        exact hb f (ht.before.subset hf)
      have hd := doomed_run hz hle hy hc hk hb'
      exact hd.mono (fun m h => h.mono ht.before) reply hk'
    · exact absurd (ended_run hy hle hz hk') (hk reply)
  have unstarted (hs : z.execution.stage.IsUnstarted)
      (hev : ∃ ev, .ok ev ∈ (start g models).items id fore ∧ IsStart x.execution.request ev) :
      False := by
    obtain ⟨ev, hev, hstart⟩ := hev
    have h := started_of_items hz hev (hr ▸ hstart)
    rcases hs with hs | hs | hs <;> simp [hs, Stage.IsOver] at h
  cases hp with
  | refused => exact ⟨⟨_, rfl⟩, fun _ => .inl rfl⟩
  | left => exact ⟨⟨_, rfl⟩, fun _ => .inl rfl⟩
  | halted => exact ⟨⟨_, rfl⟩, fun _ => .inl rfl⟩
  | untargeted hs => exact ⟨⟨_, rfl⟩, fun hev => (unstarted (.inr (.inr hs)) hev).elim⟩
  | succeeded _ hk' => rcases doomed hk' with h | ⟨m, h, -⟩ <;> cases h
  | failed _ hk' =>
    refine ⟨⟨_, rfl⟩, fun _ => ?_⟩
    rcases doomed hk' with h | ⟨m, h, -⟩
    · cases h
      exact .inl rfl
    · cases h
  | panicked _ hk' =>
    refine ⟨⟨_, rfl⟩, fun _ => ?_⟩
    rcases doomed hk' with h | ⟨m, h, hpanics⟩
    · cases h
    · cases h
      exact .inr ⟨_, rfl, hpanics⟩
  | _ => cases hl

theorem forwarded_after_start (hx : ((start g models).run es).served[id]? = some x)
    (hne : ((start g models).run es).site.forwarded id ≠ []) :
    ∃ ev, .ok ev ∈ (start g models).items id es ∧ IsStart x.execution.request ev := by
  rcases unpolled_run hx with hk | ⟨pre, e, ev, ht, -, hev, hs⟩
  · have hr := (marked_run hx).reached
    rw [hk] at hr
    cases hr with
    | absent _ hes =>
      rw [Site.forwarded_eq, hes] at hne
      exact absurd rfl hne
  · obtain ⟨post, rfl⟩ := ht.before
    refine ⟨ev, ?_, hs⟩
    rw [items, observed_append]
    exact List.mem_append_left _ hev

end

structure Gated (g : Engine) (models : List LanguageModel) (es : List Step) (id : Nat)
    (x : Served) : Prop where
  unstarted : ∀ {pre : List Step} {y : Served}, pre <+: es →
    ((start g models).run pre).served[id]? = some y → y.cancelled = true →
    y.execution.stage.IsUnstarted →
    x.execution.task = .absent ∧ x.execution.work = .absent ∧
      ∀ f ∈ ((start g models).run es).site.effectsOf id, f = .note .executing
  unlaunched : ∀ {pre : List Step} {y : Served}, pre <+: es →
    ((start g models).run pre).served[id]? = some y →
    Execution.stopped y.cancelled y.execution = true → y.execution.task.IsUnlaunched →
    x.execution.work = .absent ∧ ((start g models).run es).site.forwarded id = []
  unsettled : ∀ {pre fore : List Step} {y : Served} {e : Step} {shown : Polled}, pre <+: es →
    ((start g models).run pre).served[id]? = some y → y.cancelled = true →
    (∀ reply, y.execution.task ≠ .ended reply) → Takes es fore e →
    stream id ((start g models).run fore) e = some shown → shown.isLast = true →
    (∃ err, shown = .failure err) ∧
      ((∃ ev, .ok ev ∈ (start g models).items id fore ∧ IsStart x.execution.request ev) →
        (∀ m, ¬ (start g models).TracerPanics es id m) → shown = .failure .cancelled)
  once : (((start g models).run es).site.forwarded id).length ≤ 1
  started : ((start g models).run es).site.forwarded id ≠ [] →
    ∃ ev, .ok ev ∈ (start g models).items id es ∧ IsStart x.execution.request ev
  inputs : ∀ inputs ∈ ((start g models).run es).site.forwarded id,
    Field.autoparse (declaredInputs x.execution.request) x.execution.request.inputs = .ok inputs

theorem gated_run {g : Engine} {models : List LanguageModel} {es : List Step} {id : Nat}
    {x : Served} (hx : ((start g models).run es).served[id]? = some x)
    (hb : ∀ f ∈ es, f.action = .task id → f.engine.compiler.Endures x.execution.request) :
    Gated g models es id x := by
  have hr := (marked_run hx).reached
  have hlaunches := hr.launches
  rw [← Site.forwarded_eq] at hlaunches
  generalize hstarted : ((start g models).run es).site.forwarded id = started at hlaunches
  refine ⟨?_, ?_, ?_, ?_, forwarded_after_start hx, ?_⟩
  · intro pre y hpre hy hc hs
    have hk := withheld_run hx hpre hy hc hs
    rw [hk] at hr
    cases hr with | absent hw => exact ⟨hk, hw, quiet_run hx hk⟩
  · intro pre y hpre hy hs hk
    have hw := barred_run hx hpre hy hs hk
    refine ⟨hw, ?_⟩
    cases hlaunches with
    | never => exact hstarted
    | once hne => exact absurd hw hne
  · intro pre fore y e shown hpre hy hc hk ht hshown hl
    obtain ⟨hfails, hlast⟩ := last_of_cancelled hb hx hpre hy hc hk ht hshown hl
    refine ⟨hfails, fun hstart hsteady => (hlast hstart).resolve_right ?_⟩
    rintro ⟨m, -, hpanics⟩
    exact hsteady m hpanics
  · rw [hstarted]
    cases hlaunches with
    | never => exact Nat.zero_le 1
    | once => exact Nat.le_refl 1
  · intro inputs hmem
    rw [hstarted] at hmem
    cases hlaunches with
    | never => simp at hmem
    | once _ hi => exact List.mem_singleton.mp hmem ▸ hi

/-- The module has answered before the token is cancelled, and the stream still ends with the
cancellation. -/
theorem gated_late :
    ∃ x y p, ((start .bare []).run (Engine.bare.steps Action.late)).served[0]? = some x ∧
      Gated .bare [] (Engine.bare.steps Action.late) 0 x ∧
      ((start .bare []).run (Engine.bare.steps (Action.late.take 11))).served[0]? = some y ∧
      y.cancelled = true ∧ y.execution.task = .reporting (some 0) (.ok p) ∧
      (∀ m, ¬ (start .bare []).TracerPanics (Engine.bare.steps Action.late) 0 m) ∧
      stream 0 ((start .bare []).run (Engine.bare.steps (Action.late.take 14))) ⟨.bare, .poll 0⟩ =
        some (.failure .cancelled) := by
  have hb : ∀ f ∈ Engine.bare.steps Action.late, f.action = .task 0 →
      f.engine.compiler.Endures (.ofTerminal "t" "end") := by
    simpa [Engine.steps] using fun _ _ _ => faultless_bare.endures _
  have hg : ∀ f ∈ Engine.bare.steps Action.late, f.action = .task 0 → Calm f.engine := by
    simpa [Engine.steps] using fun _ _ _ => calm_bare
  have hx : ((start .bare []).run (Engine.bare.steps Action.late)).served[0]? = some _ := rfl
  exact ⟨_, _, _, hx, gated_run hx hb, rfl, rfl, rfl, not_tracerPanics hg, rfl⟩

/-- The same run with a tracer that panics when the scope is flushed: it ends with that panic. -/
theorem gated_unflushed :
    ∃ x y p ev,
      ((start .collapsing []).run (Engine.collapsing.steps Action.late)).served[0]? = some x ∧
      (∀ f ∈ Engine.collapsing.steps Action.late, f.action = .task 0 →
        f.engine.compiler.Endures x.execution.request) ∧
      ((start .collapsing []).run (Engine.collapsing.steps (Action.late.take 11))).served[0]? =
        some y ∧
      y.cancelled = true ∧ y.execution.task = .reporting (some 0) (.ok p) ∧
      .ok ev ∈ (start .collapsing []).items 0 (Engine.collapsing.steps (Action.late.take 14)) ∧
      IsStart x.execution.request ev ∧
      stream 0 ((start .collapsing []).run (Engine.collapsing.steps (Action.late.take 14)))
        ⟨.collapsing, .poll 0⟩ = some (.failure (taskPanic 0 "boom")) ∧
      taskPanic 0 "boom" ≠ .cancelled := by
  have hc : Engine.collapsing.compiler.Endures (.ofTerminal "t" "end") := faultless_bare.endures _
  have hb : ∀ f ∈ Engine.collapsing.steps Action.late, f.action = .task 0 →
      f.engine.compiler.Endures (.ofTerminal "t" "end") := by
    simpa [Engine.steps] using fun _ _ _ => hc
  have hev : .ok (startEvent (.ofTerminal "t" "end") 1700000000000) ∈
      (start .collapsing []).items 0 (Engine.collapsing.steps (Action.late.take 14)) := by decide
  exact ⟨_, _, _, _, rfl, hb, rfl, rfl, rfl, hev, isStart_startEvent _ _, rfl, by simp [taskPanic]⟩

end Service

end NodeRun
