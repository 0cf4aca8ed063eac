import NodeRun.Proofs.Flushing

/-!
What is reported of an execution, given the last item that its stream shows. A failure is reported
before the scope is flushed, so that a token that is cancelled during the flush comes too late for
the report, though not for the stream.
-/

namespace NodeRun

namespace Effect

def isReport : Effect → Bool
  | note .failureReported => true
  | failureReported _ _ => true
  | _ => false

theorem isMilestone_of_isReport {e : Effect} (h : e.isReport = true) : e.isMilestone = true := by
  unfold isReport at h
  split at h
  · rfl
  · rfl
  · cases h

end Effect

namespace Site

def reports (s : Site) (id : Nat) : List Effect := (s.effectsOf id).filter Effect.isReport

theorem reports_eq (s : Site) (id : Nat) :
    s.reports id = (s.milestones id).filter Effect.isReport := by
  unfold reports milestones
  rw [List.filter_filter]
  congr 1
  funext e
  cases h : e.isReport with
  | false => rfl
  | true => simp [Effect.isMilestone_of_isReport h]

end Site

namespace Execution

def IsReport (r : ExecuteRequest) (e : Error) (f : Effect) : Prop :=
  f = .note .failureReported ∨ f = .failureReported e ⟨r.traceId, r.workflow.id⟩

inductive Reports (r : ExecuteRequest) (started : Prop) (stopped : Bool) :
    Polled → List Effect → Prop where
  | succeeded {e : Event} (h : started) : Reports r started stopped (.event e) []
  | unstarted {e : Error} (h : ¬ started) : Reports r started stopped (.failure e) []
  | failed {e : Error} {f : Effect} (h : started) (he : e ≠ .cancelled) (hf : IsReport r e f) :
    Reports r started stopped (.failure e) [f]
  | cancelled (h : started) : Reports r started stopped (.failure .cancelled) []
  | overtaken {e : Error} {f : Effect} (h : started) (he : e ≠ .cancelled) (hf : IsReport r e f)
    (hs : stopped = true) : Reports r started stopped (.failure .cancelled) [f]

section

variable {id : Nat} {r : ExecuteRequest} {s : Site} {b : Bool} {w : Work} {guard : Guard}
  {es opens starts fs : List Effect} {result : Except Error Prediction} {reply : Reply Prediction}

theorem Entered.unreported (h : Entered r s opens guard) :
    opens.filter Effect.isReport = [] := by
  cases h <;> rename_i hes <;> subst hes <;> rfl

theorem Forwarded.unreported (h : Forwarded r starts w) : starts.filter Effect.isReport = [] := by
  cases h <;> rename_i hes <;> subst hes <;> rfl

theorem closing_unreported (opens : List Effect) : (closing opens).filter Effect.isReport = [] := by
  rw [List.filter_eq_nil_iff]
  intro f hf
  obtain ⟨e, -, he⟩ := List.mem_filterMap.mp hf
  obtain ⟨o, -, rfl⟩ := Option.map_eq_some_iff.mp he
  simp [Effect.isReport]

theorem Reported.filter (h : Reported r b result fs) : fs.filter Effect.isReport = fs := by
  cases h <;> rename_i hes <;> subst hes <;> rfl

theorem reports_of_parts (he : Entered r s opens guard) (hf : Forwarded r starts w)
    (hr : Reported r b result fs) :
    (opens ++ (starts ++ fs) ++ closing opens).filter Effect.isReport = fs := by
  simp [he.unreported, hf.unreported, closing_unreported, hr.filter]

theorem Reached.reported (h : Reached id r s b w es (.ended reply)) (hp : ∀ m, reply ≠ .panic m) :
    (∃ result, Reported r b result (es.filter Effect.isReport) ∧ reply = .error .cancelled ∧
        b = true) ∨
      ∃ result, Reported r false result (es.filter Effect.isReport) ∧ reply = .ofExcept result := by
  cases h with
  | stopped he hf _ hr hes hs hreply =>
    rw [hes, reports_of_parts he hf hr]
    exact .inl ⟨_, hr, hreply, hs⟩
  | settled he hf _ hr hes hreply =>
    rw [hes, reports_of_parts he hf hr]
    exact .inr ⟨_, hr, hreply⟩
  | panicked => exact absurd rfl (hp _)

theorem Reported.of_ok {p : Prediction} (h : Reported r false (.ok p) fs) : fs = [] := by
  cases h with
  | unreported _ hes => exact hes
  | logged h => cases h
  | reported h => cases h

theorem Reported.of_error {e : Error} {started : Prop} (h : Reported r false (.error e) fs)
    (hs : started) : Reports r started b (.failure e) fs := by
  cases h with
  | unreported h hes =>
    have he : e = .cancelled := by simpa using h
    rw [he, hes]
    exact .cancelled hs
  | logged h he hes =>
    cases h
    exact hes ▸ .failed hs he (.inl rfl)
  | reported h he hes =>
    cases h
    exact hes ▸ .failed hs he (.inr rfl)

theorem Reported.of_stopped {started : Prop} (h : Reported r b result fs) (hb : b = true)
    (hs : started) : Reports r started b (.failure .cancelled) fs := by
  cases h with
  | unreported _ hes => exact hes ▸ .cancelled hs
  | logged _ he hes => exact hes ▸ .overtaken hs he (.inl rfl) hb
  | reported _ he hes => exact hes ▸ .overtaken hs he (.inr rfl) hb

theorem Reached.reports {id : Nat} {c : Bool} {t t' : Turn} {shown : Polled} {started : Prop}
    {dropped : Prop} {whole : List (Except Error Event) → Prop}
    {items : List (Except Error Event)} {es : List Effect}
    (h : Reached id t.self.request t.site b t.self.work es t.self.task)
    (hp : Polls id c t shown t') (hl : shown.isLast = true)
    (hk : t.self.task = .absent ∨ t.self.stage = .awaiting ∨ t.self.stage.IsOver)
    (hn : ¬ t.self.IsPanicked) (hs : Said t.self.request dropped whole t.self.stage items)
    (hi : started ↔ ∃ ev, .ok ev ∈ items ∧ IsStart t.self.request ev) :
    Reports t.self.request started b shown (es.filter Effect.isReport) := by
  -- Before the start there is no task, and so no effect of one.
  have unlaunched (hstage : t.self.stage = .idle ∨ t.self.stage = .waiting ∨
      t.self.stage = .announced) {e : Error} :
      Reports t.self.request started b (.failure e) (es.filter Effect.isReport) := by
    have habsent : t.self.task = .absent := by
      rcases hstage with hstage | hstage | hstage <;> simpa [hstage, Stage.IsOver] using hk
    have hnil : es = [] := by
      rw [habsent] at h
      cases h with | absent _ hes => exact hes
    rw [hnil]
    refine .unstarted ?_
    rw [hi]
    rintro ⟨ev, hev, state, inputs, rfl, -⟩
    rcases hstage with hstage | hstage | hstage <;> rw [hstage] at hs <;> cases hs <;>
      simp [announcement] at hev
  have launched (hstage : t.self.stage = .awaiting) : started := by
    rw [hstage] at hs
    cases hs with
    | @awaiting _ now =>
      exact hi.mpr ⟨startEvent t.self.request now, by simp, isStart_startEvent _ _⟩
  cases hp with
  | refused hstage => exact unlaunched (.inl hstage)
  | left hstage => exact unlaunched (.inr (.inl hstage))
  | untargeted hstage => exact unlaunched (.inr (.inr hstage))
  | halted hstage => exact unlaunched (.inr (.inr hstage))
  | panicked _ hk => exact absurd ⟨_, hk⟩ hn
  | succeeded hstage hk =>
    rw [hk] at h
    rcases h.reported (by simp) with ⟨result, -, hreply, -⟩ | ⟨result, hr, hreply⟩
    · cases hreply
    · cases result with
      | error e => cases hreply
      | ok p => exact hr.of_ok ▸ .succeeded (launched hstage)
  | failed hstage hk =>
    rw [hk] at h
    rcases h.reported (by simp) with ⟨result, hr, hreply, hb⟩ | ⟨result, hr, hreply⟩
    · cases hreply
      exact hr.of_stopped hb (launched hstage)
    · cases result with
      | ok p => cases hreply
      | error e =>
        cases hreply
        exact hr.of_error (launched hstage)
  | _ => cases hl

end

end Execution

namespace Service

open Execution

theorem reports_run {g : Engine} {models : List LanguageModel} {es pre : List Step} {e : Step}
    {id : Nat} {shown : Polled} (hg : ∀ f ∈ es, f.action = .task id → Faultless f.engine)
    (ht : Takes es pre e) (hshown : stream id ((start g models).run pre) e = some shown)
    (hl : shown.isLast = true) :
    ∃ y, ((start g models).run pre).served[id]? = some y ∧
      Reports y.execution.request
        (∃ ev, .ok ev ∈ (start g models).items id pre ∧ IsStart y.execution.request ev)
        (Execution.stopped y.cancelled y.execution) shown
        (((start g models).run es).site.reports id) := by
  obtain ⟨y, t, hy, hp, hsame⟩ := last_run ht hshown hl
  have hm := marked_run hy
  have hn := unpanicked_run hy fun f hf => hg f (ht.before.subset hf)
  refine ⟨y, hy, ?_⟩
  rw [Site.reports_eq, hsame]
  exact Reached.reports (t := ((start g models).run pre).turn y) hm.reached hp hl hm.handed hn
    (told_run hy).said Iff.rfl

/-- A module that cannot be built: the failure is reported, the token is cancelled before the scope
is flushed, and the stream ends with the cancellation. -/
example :
    let es := Engine.bare.steps
      ([.launch ⟨"t", { Workflow.new "w" .unset with nodes := [⟨"n", .unsupported "x" .null⟩] },
          "n", ∅⟩ false, .poll 0, .poll 0, .poll 0, .task 0, .task 0, .task 0, .cancel 0,
        .task 0, .task 0])
    stream 0 ((start .bare []).run es) ⟨.bare, .poll 0⟩ = some (.failure .cancelled) ∧
      ((start .bare []).run es).site.reports 0 = [.note .failureReported] := by decide

end Service

end NodeRun
