import NodeRun.Proofs.Journal
import NodeRun.Proofs.Silence

/-!
How far an execution has come can be read off its milestones in the journal. A scope is opened
first, if at all; then the module is started, at most once; then a failure is reported; and last,
when it is known how the module ended, the scope that was opened is flushed.
-/

namespace NodeRun

namespace Work

def IsOver (w : Work) : Prop := w = .absent ∨ w = .aborted ∨ ∃ reply, w = .ended reply

end Work

namespace Execution

inductive Entered (r : ExecuteRequest) (s : Site) (opens : List Effect) : Guard → Prop where
  | untraced (h : r.workflow.enableTracing = false) (hes : opens = []) : Entered r s opens none
  | refused (h : r.workflow.enableTracing = true) (hes : opens = [.note .scopeRefused]) :
    Entered r s opens none
  | opened {place : Nat} {c : EngineConfig} (h : r.workflow.enableTracing = true)
    (ho : s.optionsAt place = some (traceOptions c r))
    (hes : opens = [.scopeOpened (traceOptions c r)]) : Entered r s opens (some place)

def parsed (r : ExecuteRequest) : Except Error (Table Json) :=
  Field.autoparse (declaredInputs r) r.inputs

inductive Forwarded (r : ExecuteRequest) (starts : List Effect) : Work → Prop where
  | absent (hes : starts = []) : Forwarded r starts .absent
  | ready {guard : Guard} {m : Module} {inputs : Table Json} (hi : parsed r = .ok inputs)
    (hes : starts = []) : Forwarded r starts (.ready guard m inputs)
  | calling {guard : Guard} {call : Pending} {wake : Nat} {inputs : Table Json}
    (hi : parsed r = .ok inputs) (hes : starts = [.forwardStarted inputs]) :
    Forwarded r starts (.calling guard call wake)
  | ended {reply : Reply Prediction} {inputs : Table Json} (hi : parsed r = .ok inputs)
    (hes : starts = [.forwardStarted inputs]) : Forwarded r starts (.ended reply)
  | unstarted (hes : starts = []) : Forwarded r starts .aborted
  | aborted {inputs : Table Json} (hi : parsed r = .ok inputs)
    (hes : starts = [.forwardStarted inputs]) : Forwarded r starts .aborted

/-- What the task makes of its work, once that is over. -/
inductive Concluded (id : Nat) (w : Work) : Except Error Prediction → Prop where
  | replied {reply : Reply Prediction} (hw : w = .ended reply) :
    Concluded id w (reply.toExcept (workPanic id))
  | aborted (hw : w = .aborted) : Concluded id w (.error .cancelled)
  | unstarted {e : Error} (hw : w = .absent) : Concluded id w (.error e)

inductive Reported (r : ExecuteRequest) (stopped : Bool) (result : Except Error Prediction)
    (reports : List Effect) : Prop where
  | unreported (h : stopped = true ∨ ∀ e, result = .error e → e = .cancelled)
    (hes : reports = []) : Reported r stopped result reports
  | logged {e : Error} (h : result = .error e) (he : e ≠ .cancelled)
    (hes : reports = [.note .failureReported]) : Reported r stopped result reports
  | reported {e : Error} (h : result = .error e) (he : e ≠ .cancelled)
    (hes : reports = [.failureReported e ⟨r.traceId, r.workflow.id⟩]) :
    Reported r stopped result reports

def closing (opens : List Effect) : List Effect :=
  opens.filterMap fun e => e.options?.map .scopeFlushed

inductive Reached (id : Nat) (r : ExecuteRequest) (s : Site) (stopped : Bool) (w : Work)
    (es : List Effect) : Task → Prop where
  | absent (hw : w = .absent) (hes : es = []) : Reached id r s stopped w es .absent
  | opening (hw : w = .absent) (hes : es = []) : Reached id r s stopped w es .opening
  | compiling {guard : Guard} (hw : w = .absent) (he : Entered r s es guard) :
    Reached id r s stopped w es (.compiling guard)
  | parsing {guard : Guard} {m : Module} (hw : w = .absent) (he : Entered r s es guard) :
    Reached id r s stopped w es (.parsing guard m)
  | launching {guard : Guard} {m : Module} {inputs : Table Json} (hw : w = .absent)
    (he : Entered r s es guard) (hi : parsed r = .ok inputs) :
    Reached id r s stopped w es (.launching guard m inputs)
  | invoking {guard : Guard} {opens starts : List Effect} (he : Entered r s opens guard)
    (hf : Forwarded r starts w) (hes : es = opens ++ starts) :
    Reached id r s stopped w es (.invoking guard)
  | reporting {guard : Guard} {result : Except Error Prediction} {opens starts : List Effect}
    (he : Entered r s opens guard) (hf : Forwarded r starts w) (hc : Concluded id w result)
    (hes : es = opens ++ starts) : Reached id r s stopped w es (.reporting guard result)
  | flushing {guard : Guard} {result : Except Error Prediction}
    {opens starts reports : List Effect} (he : Entered r s opens guard)
    (hf : Forwarded r starts w) (hc : Concluded id w result)
    (hr : Reported r stopped result reports) (hes : es = opens ++ (starts ++ reports)) :
    Reached id r s stopped w es (.flushing guard result)
  | settling {guard : Guard} {result : Except Error Prediction}
    {opens starts reports : List Effect} (he : Entered r s opens guard)
    (hf : Forwarded r starts w) (hc : Concluded id w result)
    (hr : Reported r stopped result reports)
    (hes : es = opens ++ (starts ++ reports) ++ closing opens) :
    Reached id r s stopped w es (.settling result)
  | stopped {guard : Guard} {reply : Reply Prediction} {result : Except Error Prediction}
    {opens starts reports : List Effect} (he : Entered r s opens guard)
    (hf : Forwarded r starts w) (hc : Concluded id w result)
    (hr : Reported r stopped result reports)
    (hes : es = opens ++ (starts ++ reports) ++ closing opens) (hs : stopped = true)
    (hreply : reply = .error .cancelled) : Reached id r s stopped w es (.ended reply)
  | settled {guard : Guard} {reply : Reply Prediction} {result : Except Error Prediction}
    {opens starts reports : List Effect} (he : Entered r s opens guard)
    (hf : Forwarded r starts w) (hc : Concluded id w result)
    (hr : Reported r false result reports)
    (hes : es = opens ++ (starts ++ reports) ++ closing opens)
    (hreply : reply = .ofExcept result) : Reached id r s stopped w es (.ended reply)
  | panicked {k : Task} {m : String} (h : Reached id r s stopped w es k) (hw : w.IsOver) :
    Reached id r s stopped w es (.ended (.panic m))

section

variable {id : Nat} {r : ExecuteRequest} {s s' : Site} {b b' : Bool} {w : Work} {k : Task}
  {es opens starts reports : List Effect} {guard : Guard} {result : Except Error Prediction}

theorem Entered.mono (h : Entered r s opens guard)
    (hs : ∀ {place : Nat} {o : TraceOptions}, s.optionsAt place = some o →
      s'.optionsAt place = some o) : Entered r s' opens guard := by
  cases h with
  | untraced h hes => exact .untraced h hes
  | refused h hes => exact .refused h hes
  | opened h ho hes => exact .opened h (hs ho) hes

theorem Reported.mono (h : Reported r b result reports) (hb : b = true → b' = true) :
    Reported r b' result reports := by
  cases h with
  | unreported h hes => exact .unreported (h.imp_left hb) hes
  | logged h he hes => exact .logged h he hes
  | reported h he hes => exact .reported h he hes

theorem Reached.mono (h : Reached id r s b w es k)
    (hs : ∀ {place : Nat} {o : TraceOptions}, s.optionsAt place = some o →
      s'.optionsAt place = some o)
    (hb : b = true → b' = true) : Reached id r s' b' w es k := by
  induction h with
  | absent hw hes => exact .absent hw hes
  | opening hw hes => exact .opening hw hes
  | compiling hw he => exact .compiling hw (he.mono hs)
  | parsing hw he => exact .parsing hw (he.mono hs)
  | launching hw he hi => exact .launching hw (he.mono hs) hi
  | invoking he hf hes => exact .invoking (he.mono hs) hf hes
  | reporting he hf hc hes => exact .reporting (he.mono hs) hf hc hes
  | flushing he hf hc hr hes => exact .flushing (he.mono hs) hf hc (hr.mono hb) hes
  | settling he hf hc hr hes => exact .settling (he.mono hs) hf hc (hr.mono hb) hes
  | stopped he hf hc hr hes ht hreply =>
    exact .stopped (he.mono hs) hf hc (hr.mono hb) hes (hb ht) hreply
  | settled he hf hc hr hes hreply => exact .settled (he.mono hs) hf hc hr hes hreply
  | panicked _ hw ih => exact .panicked ih hw

theorem Reached.emit {fs : List Effect} (h : Reached id r s b w (s.milestones id) k)
    (hm : ∀ e ∈ fs, e.isMilestone = false) :
    Reached id r (s.emit (some id) fs) b w ((s.emit (some id) fs).milestones id) k := by
  rw [(Site.adds_emit s (some id) fs).milestones_still hm]
  exact h.mono (fun ho => ho) (fun hb => hb)

theorem Entered.unstarted {e : Error} (he : Entered r s es guard) (hw : w = .absent) :
    Reached id r s b w es (.reporting guard (.error e)) :=
  .reporting he (hw ▸ .absent rfl) (.unstarted hw) (List.append_nil _).symm

theorem Forwarded.abort (h : Forwarded r starts w) : Forwarded r starts .aborted := by
  cases h with
  | absent h => exact .unstarted h
  | ready _ h => exact .unstarted h
  | calling hi h => exact .aborted hi h
  | ended hi h => exact .aborted hi h
  | unstarted h => exact .unstarted h
  | aborted hi h => exact .aborted hi h

theorem Concluded.isOver (h : Concluded id w result) : w.IsOver := by
  cases h with
  | replied hw => exact .inr (.inr ⟨_, hw⟩)
  | aborted hw => exact .inr (.inl hw)
  | unstarted hw => exact .inl hw

end

theorem Reached.isOver {id : Nat} {r : ExecuteRequest} {s : Site} {b : Bool} {w : Work}
    {es : List Effect} {k : Task} (h : Reached id r s b w es k)
    (hk : ∀ guard, k ≠ .invoking guard) : w.IsOver := by
  cases h with
  | absent hw => exact .inl hw
  | opening hw => exact .inl hw
  | compiling hw => exact .inl hw
  | parsing hw => exact .inl hw
  | launching hw => exact .inl hw
  | invoking => exact absurd rfl (hk _)
  | reporting _ _ hc => exact hc.isOver
  | flushing _ _ hc => exact hc.isOver
  | settling _ _ hc => exact hc.isOver
  | stopped _ _ hc => exact hc.isOver
  | settled _ _ hc => exact hc.isOver
  | panicked _ hw => exact hw

section

variable {g : Engine} {id : Nat} {c : Bool} {t t' : Turn} {k : Task}
  {opens starts reports : List Effect} {guard : Guard} {result : Except Error Prediction}

theorem WorkSteps.eq_of_over (h : WorkSteps g id t t') (ho : t.self.work.IsOver) : t' = t := by
  rcases ho with hw | hw | ⟨reply, hw⟩ <;> cases h <;> simp_all

theorem Forwarded.work (h : Forwarded t.self.request starts t.self.work)
    (hs : WorkSteps g id t t') :
    Forwarded t.self.request (starts ++ workMilestones t.self.work) t'.self.work := by
  cases hs with
  | finished hw =>
    rw [hw] at h ⊢
    cases h with | ready hi hes => exact .ended hi (by simp [hes, workMilestones])
  | called hw =>
    rw [hw] at h ⊢
    cases h with | ready hi hes => exact .calling hi (by simp [hes, workMilestones])
  | returned hw =>
    rw [hw] at h ⊢
    cases h with | calling hi hes => exact .ended hi (by simp [hes, workMilestones])
  | waiting hw => simpa [hw, workMilestones] using h
  | idle hw => rcases hw with hw | hw | ⟨reply, hw⟩ <;> simpa [hw, workMilestones] using h

theorem Reached.work {b : Bool}
    (h : Reached id t.self.request t.site b t.self.work (t.site.milestones id) k)
    (hs : WorkSteps g id t t') :
    Reached id t'.self.request t'.site b t'.self.work (t'.site.milestones id) k := by
  by_cases hk : ∃ guard, k = .invoking guard
  · obtain ⟨guard, rfl⟩ := hk
    cases h with
    | invoking he hf hes =>
      obtain ⟨fs, ha, hfs⟩ := hs.adds
      rw [ha.milestones, hes, hfs, List.append_assoc, hs.request_eq]
      exact .invoking (he.mono ha.scopes) (hf.work hs) rfl
  · have ho := h.isOver fun guard hg => hk ⟨guard, hg⟩
    rwa [hs.eq_of_over ho]

theorem opened_marks {site : Site}
    (ho : Guard.openScope t.site g.tracer (some id) t.self.request.workflow.enableTracing
      (traceOptions g.config t.self.request) = (.ok guard, site))
    (hes : t.site.milestones id = []) :
    Entered t.self.request site (site.milestones id) guard := by
  rcases Guard.of_openScope_ok ho with ⟨hw, rfl, rfl⟩ | ⟨hw, place, rfl, hp, ha⟩
  · exact .untraced hw hes
  · refine .opened hw hp ?_
    rw [ha.milestones, hes, Tracer.openEffects, List.nil_append, List.filter_cons_of_pos rfl]
    split <;> rfl

theorem finish_marks (g : Engine) (id : Nat) (he : Entered t.self.request t.site opens guard) :
    t.site.milestones id ++ closing opens =
        (guard.finish t.site g.tracer (some id)).2.milestones id ∧
      Entered t.self.request (guard.finish t.site g.tracer (some id)).2 opens guard := by
  cases he with
  | untraced h hes =>
    subst hes
    exact ⟨List.append_nil _, .untraced h rfl⟩
  | refused h hes =>
    subst hes
    exact ⟨List.append_nil _, .refused h rfl⟩
  | opened h ho hes =>
    obtain ⟨fs, ha, hm⟩ := Guard.adds_finish g.tracer (some id) ho
    refine ⟨?_, .opened h (ha.scopes ho) hes⟩
    have hnil : fs.filter Effect.isMilestone = [] := by simpa using hm
    rw [ha.milestones, List.filter_cons_of_pos rfl, hnil, hes]
    rfl

theorem report_marks (g : Engine) (id : Nat) (t : Turn) (b : Bool) {e : Error}
    (he : e ≠ .cancelled) :
    ∃ reports, (t.site.emit (some id) (reportEffects g e t.self.request)).milestones id =
      t.site.milestones id ++ reports ∧ Reported t.self.request b (.error e) reports := by
  refine ⟨_, (Site.adds_emit _ _ _).milestones, ?_⟩
  unfold reportEffects
  rw [List.filter_cons_of_neg (by simp [Effect.isMilestone])]
  split
  · exact .logged rfl he rfl
  · exact .reported rfl he rfl

end

-- One lemma for each stage of the task, and for each way in which it is left.
section

variable {g : Engine} {id : Nat} {c : Bool} {t t' : Turn} {r : ExecuteRequest} {s s' : Site}
  {b : Bool} {w : Work} {k : Task} {es fs : List Effect} {guard : Guard} {module : Module}
  {inputs : Table Json} {result : Except Error Prediction} {e : Error}

theorem Reached.unmarked (h : Reached id r s b w es .opening) : es = [] := by
  cases h with | opening _ hes => exact hes

theorem Reached.enter (h : Reached id r s b w es .opening) (he : Entered r s' fs guard) :
    Reached id r s' b w fs (.compiling guard) := by
  cases h with | opening hw => exact .compiling hw he

theorem Reached.build (h : Reached id r s b w es (.compiling guard)) :
    Reached id r s b w es (.parsing guard module) := by
  cases h with | compiling hw he => exact .parsing hw he

theorem Reached.parse (h : Reached id r s b w es (.parsing guard module))
    (hi : parsed r = .ok inputs) : Reached id r s b w es (.launching guard module inputs) := by
  cases h with | parsing hw he => exact .launching hw he hi

theorem Reached.launch (h : Reached id r s b w es (.launching guard module inputs)) :
    Reached id r s b (.ready guard module inputs) es (.invoking guard) := by
  cases h with
  | launching hw he hi => exact .invoking he (.ready hi rfl) (List.append_nil _).symm

/-- The three stages in which a task can fail without a module that runs. -/
theorem Reached.fail (h : Reached id r s b w es k)
    (hk : k = .compiling guard ∨ (∃ m, k = .parsing guard m) ∨ ∃ m i, k = .launching guard m i) :
    Reached id r s b w es (.reporting guard (.error e)) := by
  rcases hk with rfl | ⟨m, rfl⟩ | ⟨m, i, rfl⟩
  · cases h with | compiling hw he => exact he.unstarted hw
  · cases h with | parsing hw he => exact he.unstarted hw
  · cases h with | launching hw he => exact he.unstarted hw

theorem Reached.reply {reply : Reply Prediction} (h : Reached id r s b w es (.invoking guard))
    (hw : w = .ended reply) :
    Reached id r s b w es (.reporting guard (reply.toExcept (workPanic id))) := by
  cases h with | invoking he hf hes => exact .reporting he hf (.replied hw) hes

theorem Reached.abort (h : Reached id r s b w es (.invoking guard)) :
    Reached id r s b .aborted es (.reporting guard (.error .cancelled)) := by
  cases h with | invoking he hf hes => exact .reporting he hf.abort (.aborted rfl) hes

theorem Reached.skipReport (h : Reached id r s b w es (.reporting guard result))
    (hr : b = true ∨ ∀ e, result = .error e → e = .cancelled) :
    Reached id r s b w es (.flushing guard result) := by
  cases h with
  | reporting he hf hc hes => exact .flushing he hf hc (.unreported hr rfl) (by simpa using hes)

theorem Reached.report
    (h : Reached id t.self.request t.site b w (t.site.milestones id) (.reporting guard (.error e)))
    (he : e ≠ .cancelled) (hs : s = t.site.emit (some id) (reportEffects g e t.self.request)) :
    Reached id t.self.request s b w (s.milestones id) (.flushing guard (.error e)) := by
  subst hs
  obtain ⟨reports, hm, hr⟩ := report_marks g id t b he
  cases h with
  | reporting he hf hc hes =>
    rw [hes, List.append_assoc] at hm
    exact .flushing (he.mono fun ho => ho) hf hc hr hm

theorem Reached.flush
    (h : Reached id t.self.request t.site b w (t.site.milestones id) (.flushing guard result))
    (hs : s = (guard.finish t.site g.tracer (some id)).2) :
    Reached id t.self.request s b w (s.milestones id) (.settling result) := by
  subst hs
  cases h with
  | flushing he hf hc hr hes =>
    obtain ⟨hm, he'⟩ := finish_marks g id he
    rw [hes] at hm
    exact .settling he' hf hc hr hm.symm

theorem Reached.stop (h : Reached id r s b w es (.settling result)) (hb : b = true) :
    Reached id r s b w es (.ended (.error .cancelled)) := by
  cases h with | settling he hf hc hr hes => exact .stopped he hf hc hr hes hb rfl

theorem Reached.settle (h : Reached id r s b w es (.settling result)) (hb : b = false) :
    Reached id r s b w es (.ended (.ofExcept result)) := by
  cases h with | settling he hf hc hr hes => exact .settled he hf hc (hb ▸ hr) hes rfl

theorem Reached.task
    (h : Reached id t.self.request t.site (Execution.stopped c t.self) t.self.work
      (t.site.milestones id) t.self.task) (hs : TaskSteps g id c t t') :
    Reached id t'.self.request t'.site (Execution.stopped c t'.self) t'.self.work
      (t'.site.milestones id) t'.self.task := by
  have compiled {n : Node} {reply : Reply Module} {es : List Effect}
      (hb : g.compiler.compile n t.self.request.workflow = (reply, es)) :
      ∀ e ∈ es, e.isMilestone = false := by
    have hm := g.compiler.compile_effects n t.self.request.workflow
    rwa [hb] at hm
  cases hs with
  | absent => exact h
  | ended => exact h
  | unreplied => exact h
  | openPanicked hk => exact .panicked h (h.isOver (by simp [hk]))
  | trackPanicked hk => exact .panicked h (h.isOver (by simp [hk]))
  | flushPanicked hk => exact .panicked h (h.isOver (by simp [hk]))
  | buildPanicked hk _ _ hb => exact .panicked (h.emit (compiled hb)) (h.isOver (by simp [hk]))
  | reportPanicked hk hne =>
    have ho := h.isOver (by simp [hk])
    rw [hk] at h
    exact .panicked (h.report hne rfl) ho
  | opened hk _ ho =>
    rw [hk] at h
    exact h.enter (opened_marks ho h.unmarked)
  | refused hk _ ho =>
    obtain ⟨hwanted, ha⟩ := Guard.of_openScope_error ho
    rw [hk] at h
    have hm := (ha.emit [.note .scopeRefused]).milestones
    rw [h.unmarked] at hm
    exact h.enter (.refused hwanted hm)
  | untargeted hk => exact h.fail (.inl hk)
  | built hk _ _ hb =>
    rw [hk] at h
    exact (h.emit (compiled hb)).build
  | unbuilt hk _ _ hb => exact (h.emit (compiled hb)).fail (.inl hk)
  | parsed hk hi =>
    rw [hk] at h
    exact h.parse hi
  | unparsed hk => exact h.fail (.inr (.inl ⟨_, hk⟩))
  | launched hk =>
    rw [hk] at h
    exact h.launch
  | unlaunched hk => exact h.fail (.inr (.inr ⟨_, _, hk⟩))
  | replied hk _ hw =>
    rw [hk] at h
    exact h.reply hw
  | aborted hk =>
    rw [hk] at h
    exact h.abort
  | unreported hk hr =>
    rw [hk] at h
    exact h.skipReport hr
  | reported hk hne =>
    rw [hk] at h
    exact h.report hne rfl
  | flushed hk =>
    rw [hk] at h
    exact h.flush rfl
  | stopped hk hstop =>
    have hnote : ∀ e ∈ [Effect.note .stopped], e.isMilestone = false := by
      simp [Effect.isMilestone]
    rw [hk] at h
    exact (h.emit hnote).stop hstop
  | settled hk hstop =>
    rw [hk] at h
    exact h.settle hstop

theorem TaskSteps.eq_of_absent (hs : TaskSteps g id c t t') (hk : t.self.task = .absent) :
    t' = t := by
  cases hs <;> simp_all

theorem TaskSteps.eq_of_ended {reply : Reply Prediction} (hs : TaskSteps g id c t t')
    (hk : t.self.task = .ended reply) : t' = t := by
  cases hs <;> simp_all

end

structure Marked (x : Execution) (s : Site) (id : Nat) (c : Bool) : Prop where
  reached : Reached id x.request s (Execution.stopped c x) x.work (s.milestones id) x.task
  handed : x.task = .absent ∨ x.stage = .awaiting ∨ x.stage.IsOver

section

variable {g : Engine} {id : Nat} {c c' : Bool} {t t' : Turn} {shown : Polled} {x : Execution}
  {s s' : Site} {who : Option Nat} {es : List Effect}

theorem Marked.mono (h : x.Marked s id c) (ha : s.Adds s' who es) (hw : who ≠ some id)
    (hc : c = true → c' = true) : x.Marked s' id c' := by
  refine ⟨?_, h.handed⟩
  rw [ha.milestones_other hw]
  refine h.reached.mono ha.scopes ?_
  simpa [Execution.stopped] using fun hs => hs.imp_left hc

theorem Marked.close (h : t.self.Marked t.site id c) :
    (close id t).self.Marked (close id t).site id c := by
  rw [close_self, close_site]
  refine ⟨h.reached.mono (fun ho => ho) ?_, .inr (.inr (.inr (.inl rfl)))⟩
  simpa [Execution.stopped] using fun hs => by rcases hs with hs | hs <;> simp [hs]

theorem Marked.poll (h : t.self.Marked t.site id c) (hp : Polls id c t shown t') :
    t'.self.Marked t'.site id c := by
  obtain ⟨es, ha, hm⟩ := hp.adds
  have hr : Reached id t.self.request t'.site (Execution.stopped c t.self) t.self.work
      (t'.site.milestones id) t.self.task := by
    rw [ha.milestones_still hm]
    exact h.reached.mono ha.scopes fun hb => hb
  have hh := h.handed
  cases hp with
  | exhausted => exact h.close
  | spawned hs =>
    have hk : t.self.task = .absent := by simpa [hs, Stage.IsOver] using hh
    rw [hk] at hr
    cases hr with
    | absent hw hes => exact ⟨.opening hw hes, .inr (.inl rfl)⟩
  | succeeded => exact ⟨hr, .inr (.inr (.inl rfl))⟩
  | failed => exact ⟨hr, .inr (.inr (.inr (.inr ⟨_, rfl⟩)))⟩
  | panicked => exact ⟨hr, .inr (.inr (.inr (.inr ⟨_, rfl⟩)))⟩
  | unsettled => exact ⟨hr, hh⟩
  | waited => exact ⟨hr, hh⟩
  | closed => exact ⟨hr, hh⟩
  | _ => exact ⟨hr, .inl (by simpa [Stage.IsOver, *] using hh)⟩

theorem Marked.task (h : t.self.Marked t.site id c) (hs : TaskSteps g id c t t') :
    t'.self.Marked t'.site id c := by
  refine ⟨h.reached.task hs, ?_⟩
  rcases h.handed with hk | hst
  · rw [hs.eq_of_absent hk]
    exact .inl hk
  · exact .inr (hs.stage_eq ▸ hst)

theorem Marked.work (h : t.self.Marked t.site id c) (hs : WorkSteps g id t t') :
    t'.self.Marked t'.site id c := by
  have hr := h.reached.work hs
  have hh := h.handed
  rw [hs.self_eq] at hr ⊢
  exact ⟨hr, hh⟩

end

theorem Polls.unpanicked {id : Nat} {c : Bool} {t t' : Turn} {shown : Polled}
    (hp : Polls id c t shown t') (h : ¬ t.self.IsPanicked) : ¬ t'.self.IsPanicked := by
  cases hp with
  | spawned => simp [IsPanicked]
  | exhausted => simpa [IsPanicked, close_self] using h
  | _ => exact h

theorem TaskSteps.unpanicked {g : Engine} {id : Nat} {c : Bool} {t t' : Turn}
    (hs : TaskSteps g id c t t') (hg : Faultless g) (h : ¬ t.self.IsPanicked) :
    ¬ t'.self.IsPanicked := by
  cases hs with
  | absent => exact h
  | ended => exact h
  | unreplied => exact h
  | openPanicked _ hp => simp [hg.openPanic?_eq] at hp
  | trackPanicked _ hp => simp [hg.guardPanic?_eq] at hp
  | buildPanicked _ _ _ hb => exact absurd (by rw [hb]) (hg.compiler _ _ _)
  | reportPanicked _ _ _ hp => simp [hg.reportPanic?_eq] at hp
  | flushPanicked _ hp => simp [hg.guardPanic?_eq] at hp
  | @settled result => cases result <;> simp [IsPanicked, Reply.ofExcept]
  | _ => simp [IsPanicked]

end Execution

namespace Service

open Execution

theorem Feeds.marked {s s' : Service} {id : Nat} {x x' : Served} {shown : Polled}
    (hf : Feeds s id x shown x' s') (h : x.execution.Marked s.site id x.cancelled) :
    x'.execution.Marked s'.site id x'.cancelled := by
  rw [hf.cancelled_eq]
  refine hf.keeps (P := fun y site => y.Marked site id x.cancelled) ?_ ?_ h
  · intro shown t hp
    exact Marked.poll (t := s.turn x) h hp
  · intro t _ ht
    exact ht.close

theorem Moves.marked {s : Service} {e : Step} {id : Nat} {x x' : Served}
    (hx : s.served[id]? = some x) (hm : Moves s e id x x')
    (h : x.execution.Marked s.site id x.cancelled) :
    x'.execution.Marked (s.act e).site id x'.cancelled := by
  cases hm with
  | rested hs =>
    obtain ⟨es, ha, -⟩ := adds_act s e
    exact h.mono ha hs fun hc => by simp [hc]
  | polled ha hf hs => simpa [act, ha, hs] using hf.marked h
  | dropped ha =>
    rw [act, ha]
    simp only [drop_site]
    rw [← turn_site s x, ← close_site id (s.turn x)]
    exact Marked.close (t := s.turn x) h
  | undropped ha => simpa [act, ha] using h
  | tasked ha =>
    have hs := taskSteps_stepTask e.engine id x.cancelled (s.turn x)
    simpa [act, ha, stepTask, hx] using Marked.task (t := s.turn x) h hs
  | worked ha =>
    have hs := workSteps_stepWork e.engine id (s.turn x)
    simpa [act, ha, stepWork, hx] using Marked.work (t := s.turn x) h hs

theorem marked_run {g : Engine} {models : List LanguageModel} {es : List Step} {id : Nat}
    {x : Served} (hx : ((start g models).run es).served[id]? = some x) :
    x.execution.Marked ((start g models).run es).site id x.cancelled := by
  refine run_induction (motive := fun es id x =>
    x.execution.Marked ((start g models).run es).site id x.cancelled) ?_ ?_ hx
  · intro es e x ha
    obtain ⟨hs, -, r, hr⟩ := of_arrival ha
    obtain ⟨fs, hadds, -⟩ := adds_act ((start g models).run es) e
    have hes : (((start g models).run es).act e).site.milestones
        ((start g models).run es).served.length = [] := by
      rw [hadds.milestones_other (by simp [hs])]
      exact (owned_run g models es).milestones_absent (Nat.le_refl _)
    rw [run_append, run_cons, run_nil, hr]
    exact ⟨.absent rfl hes, .inl rfl⟩
  · intro es e id x x' hx hm h
    rw [run_append, run_cons, run_nil]
    exact hm.marked hx h

theorem Feeds.unpanicked {s s' : Service} {id : Nat} {x x' : Served} {shown : Polled}
    (hf : Feeds s id x shown x' s') (h : ¬ x.execution.IsPanicked) :
    ¬ x'.execution.IsPanicked := by
  refine hf.keeps (P := fun y _ => ¬ y.IsPanicked) ?_ ?_ h
  · intro shown t hp
    exact Polls.unpanicked (t := s.turn x) hp h
  · intro t _ ht
    simpa [IsPanicked, close_self] using ht

theorem Moves.unpanicked {s : Service} {e : Step} {id : Nat} {x x' : Served}
    (hm : Moves s e id x x') (hg : e.action = .task id → Faultless e.engine)
    (h : ¬ x.execution.IsPanicked) : ¬ x'.execution.IsPanicked := by
  cases hm with
  | rested => exact h
  | undropped => exact h
  | polled _ hf => exact hf.unpanicked h
  | dropped => simpa [IsPanicked, close_self] using h
  | tasked ha =>
    have hs := taskSteps_stepTask e.engine id x.cancelled (s.turn x)
    exact hs.unpanicked (hg ha) h
  | worked =>
    have hs := workSteps_stepWork e.engine id (s.turn x)
    rw [hs.self_eq]
    exact h

theorem unpanicked_run {g : Engine} {models : List LanguageModel} {es : List Step} {id : Nat}
    {x : Served} (hx : ((start g models).run es).served[id]? = some x)
    (hg : ∀ e ∈ es, e.action = .task id → Faultless e.engine) : ¬ x.execution.IsPanicked := by
  revert hg
  refine run_induction (motive := fun es id x =>
    (∀ e ∈ es, e.action = .task id → Faultless e.engine) → ¬ x.execution.IsPanicked) ?_ ?_ hx
  · intro es e x ha _
    obtain ⟨-, -, r, hr⟩ := of_arrival ha
    simp [IsPanicked, hr, ofRequest]
  · intro es e id x x' _ hm ih hg
    have h := ih fun f hf => hg f (List.mem_append_left _ hf)
    exact hm.unpanicked (hg e (by simp)) h

end Service

end NodeRun
