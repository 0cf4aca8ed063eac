import NodeRun.Proofs.Registration
import NodeRun.Proofs.Sequential

namespace NodeRun

namespace Event

def isLast : Event → Bool
  | componentState _ s => s.status = .success
  | error _ => true
  | _ => false

end Event

namespace Stage

def IsUnderWay (s : Stage) : Prop :=
  s = .idle ∨ s = .waiting ∨ s = .announced ∨ s = .started ∨ s = .awaiting

theorem not_isOver {s : Stage} (h : s.IsUnderWay) : ¬ s.IsOver := by
  rcases h with rfl | rfl | rfl | rfl | rfl <;> simp [IsOver]

end Stage

namespace Execution

def IsLoud (x : Execution) : Prop :=
  (x.stage = .announced ∧ ∃ e, target x.request = .error e) ∨
    (x.stage = .awaiting ∧ ∃ reply, x.task = .ended reply ∧ reply ≠ .error .cancelled)

inductive IsHushed (x : Execution) : Prop where
  | idle (h : x.stage = .idle)
  | waiting (h : x.stage = .waiting)
  | announced {n : Node} (h : x.stage = .announced) (ht : target x.request = .ok n)
  | started (h : x.stage = .started)
  | awaiting (h : x.stage = .awaiting)
    (ht : ∀ reply, x.task = .ended reply → reply = .error .cancelled)

def IsPanicked (x : Execution) : Prop := ∃ m, x.task = .ended (.panic m)

theorem hushed_or_loud {x : Execution} (h : x.stage.IsUnderWay) : x.IsHushed ∨ x.IsLoud := by
  rcases h with h | h | h | h | h
  · exact .inl (.idle h)
  · exact .inl (.waiting h)
  · cases ht : target x.request with
    | error e => exact .inr (.inl ⟨h, e, ht⟩)
    | ok n => exact .inl (.announced h ht)
  · exact .inl (.started h)
  · by_cases ht : ∃ reply, x.task = .ended reply ∧ reply ≠ .error .cancelled
    · exact .inr (.inr ⟨h, ht⟩)
    · refine .inl (.awaiting h ?_)
      intro reply hk
      by_contra hne
      exact ht ⟨reply, hk, hne⟩

theorem target_ne_cancelled (r : ExecuteRequest) : target r ≠ .error .cancelled := by
  intro h
  unfold target Workflow.validate at h
  split at h
  · rename_i e hv
    split at hv
    · cases hv
      cases h
    · cases hv
  · split at h <;> cases h

structure Faultless (g : Engine) : Prop extends Calm g where
  compiler : ∀ n w m, (g.compiler.compile n w).1 ≠ .panic m

theorem faultless_bare : Faultless .bare where
  toCalm := calm_bare
  compiler n w m := by
    obtain ⟨id, kind⟩ := n
    cases kind with
    | signature s =>
      simp only [Engine.bare, Compiler.compile, Compiler.compileKind, Compiler.compileSignature]
      split
      · simp
      · split <;> simp
    | retriever r =>
      simp only [Engine.bare, Compiler.compile, Compiler.compileKind, Compiler.compileRetriever]
      split <;> simp [Compiler.fail]
    | evaluator v =>
      simp only [Engine.bare, Compiler.compile, Compiler.compileKind, Compiler.compileEvaluator,
        Compiler.compileHosted]
      split
      · simp [Compiler.fail]
      · split
        · split <;> simp [Compiler.fail]
        · simp [Compiler.fail]
    | terminal d => simp [Compiler.compile, Compiler.compileKind]
    | unsupported type data => simp [Compiler.compile, Compiler.compileKind]

section

variable {g : Engine} {id : Nat} {t t' : Turn} {shown : Polled}

theorem IsLoud.poll (h : IsLoud t.self) (hp : Polls id true t shown t') :
    (∃ e, shown = .event e) ∨ ∃ e, shown = .failure e ∧ e ≠ .cancelled := by
  rcases h with ⟨hs, e, ht⟩ | ⟨hs, reply, hk, hne⟩
  · cases hp with
    | untargeted _ ht' =>
      refine .inr ⟨_, rfl, ?_⟩
      rintro rfl
      exact target_ne_cancelled _ ht'
    | halted _ ht' => simp [ht] at ht'
    | exhausted hs' => simp [hs] at hs'
    | _ => simp_all
  · cases hp with
    | succeeded => exact .inl ⟨_, rfl⟩
    | failed _ hk' =>
      refine .inr ⟨_, rfl, ?_⟩
      rintro rfl
      obtain rfl := Task.ended.inj (hk.symm.trans hk')
      exact hne rfl
    | panicked => exact .inr ⟨_, rfl, by simp [taskPanic]⟩
    | unsettled _ hk' => exact absurd hk (hk' reply)
    | exhausted hs' => simp [hs] at hs'
    | _ => simp_all

theorem IsHushed.poll (h : IsHushed t.self) (hp : Polls id true t shown t') :
    shown = .failure .cancelled ∨ (shown = .pending ∧ IsHushed t'.self) := by
  cases h with
  | idle hs =>
    cases hp with
    | refused => exact .inl rfl
    | exhausted hs' => simp [hs] at hs'
    | _ => simp_all
  | waiting hs =>
    cases hp with
    | left => exact .inl rfl
    | exhausted hs' => simp [hs] at hs'
    | _ => simp_all
  | announced hs ht =>
    cases hp with
    | halted => exact .inl rfl
    | exhausted hs' => simp [hs] at hs'
    | _ => simp_all
  | started hs =>
    cases hp with
    | spawned => exact .inr ⟨rfl, .awaiting rfl (by simp)⟩
    | exhausted hs' => simp [hs] at hs'
    | _ => simp_all
  | awaiting hs ht =>
    cases hp with
    | succeeded _ hk => cases ht _ hk
    | failed _ hk =>
      cases ht _ hk
      exact .inl rfl
    | panicked _ hk => cases ht _ hk
    | unsettled => exact .inr ⟨rfl, .awaiting hs ht⟩
    | exhausted hs' => simp [hs] at hs'
    | _ => simp_all

theorem Polls.stage_of_event {c : Bool} {e : Event} (h : Polls id c t (.event e) t') :
    t'.self.stage.IsUnderWay ∨ e.isLast = true := by
  cases h with
  | admitted => exact .inl (.inr (.inr (.inl rfl)))
  | granted => exact .inl (.inr (.inr (.inl rfl)))
  | begun => exact .inl (.inr (.inr (.inr (.inl rfl))))
  | succeeded => exact .inr rfl

theorem Polls.stage_of_pending {c : Bool} (h : Polls id c t .pending t') :
    t'.self.stage.IsUnderWay := by
  cases h with
  | queued => exact .inr (.inl rfl)
  | waited h => exact .inr (.inl h)
  | spawned => exact .inr (.inr (.inr (.inr rfl)))
  | unsettled h => exact .inr (.inr (.inr (.inr h)))

theorem TaskSteps.reply_of_cancelled (hs : TaskSteps g id true t t')
    (h : ∀ reply, t.self.task = .ended reply → reply = .error .cancelled) {reply : Reply Prediction}
    (hr : t'.self.task = .ended reply) :
    reply = .error .cancelled ∨ ((∃ m, reply = .panic m) ∧ ¬ Faultless g) := by
  have hrun : Execution.stopped true t.self = true := rfl
  cases hs with
  | absent => exact .inl (h reply hr)
  | ended => exact .inl (h reply hr)
  | openPanicked _ hp =>
    cases hr
    exact .inr ⟨⟨_, rfl⟩, fun hg => by simp [hg.openPanic?_eq] at hp⟩
  | trackPanicked _ hp =>
    cases hr
    exact .inr ⟨⟨_, rfl⟩, fun hg => by simp [hg.guardPanic?_eq] at hp⟩
  | buildPanicked _ _ _ hb =>
    cases hr
    exact .inr ⟨⟨_, rfl⟩, fun hg => hg.compiler _ _ _ (by rw [hb])⟩
  | reportPanicked _ _ hs => simp [hrun] at hs
  | flushPanicked _ hp =>
    cases hr
    exact .inr ⟨⟨_, rfl⟩, fun hg => by simp [hg.guardPanic?_eq] at hp⟩
  | stopped =>
    cases hr
    exact .inl rfl
  | settled _ hs => simp [hrun] at hs
  | unreplied => exact .inl (h reply hr)
  | _ => cases hr

theorem IsHushed.task (h : IsHushed t.self) (hs : TaskSteps g id true t t') :
    IsHushed t'.self ∨ (IsPanicked t'.self ∧ ¬ Faultless g) := by
  cases h with
  | idle h => exact .inl (.idle (hs.stage_eq.trans h))
  | waiting h => exact .inl (.waiting (hs.stage_eq.trans h))
  | announced h ht => exact .inl (.announced (hs.stage_eq.trans h) (hs.request_eq ▸ ht))
  | started h => exact .inl (.started (hs.stage_eq.trans h))
  | awaiting h ht =>
    by_cases hp : IsPanicked t'.self ∧ ¬ Faultless g
    · exact .inr hp
    · refine .inl (.awaiting (hs.stage_eq.trans h) ?_)
      intro reply hr
      rcases hs.reply_of_cancelled ht hr with hc | ⟨⟨m, rfl⟩, hg⟩
      · exact hc
      · exact absurd ⟨⟨m, hr⟩, hg⟩ hp

theorem IsHushed.work (h : IsHushed t.self) (hs : WorkSteps g id t t') : IsHushed t'.self := by
  rw [hs.self_eq]
  cases h with
  | idle h => exact .idle h
  | waiting h => exact .waiting h
  | announced h ht => exact .announced h ht
  | started h => exact .started h
  | awaiting h ht => exact .awaiting h ht

end

end Execution

def Action.stopped : List Action :=
  .handle (.execute (.ofTerminal "t" "end")) ::
    (Action.toEnd 0 ++ [.handle (.stop ⟨"t", none⟩)])

namespace Service

open Execution

structure Quiet (x : Served) : Prop where
  cancelled : x.cancelled = true
  front : x.front = .closed ∨ ∃ n, x.front = .serving n ∧ x.execution.IsHushed

section

variable {s s' : Service} {e : Step} {id : Nat} {x x' : Served} {shown : Polled}

theorem Quiet.polled (h : Quiet x) (hf : Feeds s id x shown x' s') :
    Quiet x' ∧ shown.event? = none := by
  obtain ⟨hc, hclosed | ⟨n, hn, hq⟩⟩ := h
  · cases hf with
    | closed => exact ⟨⟨hc, .inl hclosed⟩, rfl⟩
    | _ => simp_all
  · have poll {shown t} (hp : Execution.poll id x.cancelled (s.turn x) = (shown, t)) :
        shown = .failure .cancelled ∨ (shown = .pending ∧ IsHushed t.self) := by
      have hpolls := polls_of_poll hp
      rw [hc] at hpolls
      exact IsHushed.poll (t := s.turn x) hq hpolls
    cases hf with
    | silenced => exact ⟨⟨hc, .inl rfl⟩, rfl⟩
    | pending hf hp =>
      rcases poll hp with h | ⟨-, h⟩
      · cases h
      · exact ⟨⟨hc, .inr ⟨n, hn, h⟩⟩, rfl⟩
    | failed _ hp he =>
      rcases poll hp with h | ⟨h, -⟩
      · exact absurd (Polled.failure.inj h) he
      · cases h
    | ended _ hp => rcases poll hp with h | ⟨h, -⟩ <;> cases h
    | shown _ hp => rcases poll hp with h | ⟨h, -⟩ <;> cases h
    | _ => simp_all

theorem Quiet.moves (h : Quiet x) (hm : Moves s e id x x') :
    (Quiet x' ∨ (x'.execution.IsPanicked ∧ ¬ Faultless e.engine)) ∧
      (feed id s e).bind Polled.event? = none := by
  cases hm with
  | rested hs =>
    refine ⟨.inl ⟨by simp [h.cancelled], h.front⟩, ?_⟩
    simp [feed_other (Action.ne_poll hs)]
  | polled ha hf hs =>
    obtain ⟨hq, he⟩ := h.polled hf
    refine ⟨.inl hq, ?_⟩
    rw [feed_polled ha, hs]
    exact he
  | dropped ha =>
    refine ⟨.inl ⟨h.cancelled, .inl ?_⟩, by simp [feed_other, ha]⟩
    rcases h.front with hf | ⟨n, hf, -⟩ <;> simp [hf, Front.shut]
  | undropped ha => exact ⟨.inl h, by simp [feed_other, ha]⟩
  -- The task may still panic, in the flush of its scope.
  | tasked ha =>
    refine ⟨?_, by simp [feed_other, ha]⟩
    have ht := taskSteps_stepTask e.engine id x.cancelled (s.turn x)
    rw [h.cancelled] at ht ⊢
    rcases h.front with hf | ⟨n, hf, hq⟩
    · exact .inl ⟨rfl, .inl hf⟩
    · exact (IsHushed.task (t := s.turn x) hq ht).imp_left fun hq => ⟨rfl, .inr ⟨n, hf, hq⟩⟩
  | worked ha =>
    refine ⟨.inl ⟨h.cancelled, ?_⟩, by simp [feed_other, ha]⟩
    have hw := workSteps_stepWork e.engine id (s.turn x)
    rcases h.front with hf | ⟨n, hf, hq⟩
    · exact .inl hf
    · exact .inr ⟨n, hf, IsHushed.work (t := s.turn x) hq hw⟩

end

theorem Quiet.run {s : Service} {id : Nat} {x : Served} {after : List Step} (h : Quiet x)
    (hx : s.served[id]? = some x) (hne : s.events id after ≠ []) :
    ∃ es e y, es ++ [e] <+: after ∧ ¬ Faultless e.engine ∧
      (s.run (es ++ [e])).served[id]? = some y ∧ y.execution.IsPanicked := by
  induction after generalizing s x with
  | nil => exact absurd rfl hne
  | cons e after ih =>
    obtain ⟨x', hx', hm⟩ := moves_act (e := e) hx
    obtain ⟨hq, he⟩ := h.moves hm
    rw [events_cons, he] at hne
    rcases hq with hq | ⟨hp, hg⟩
    · obtain ⟨es, f, y, hpre, hf, hy, hp⟩ := ih hq hx' hne
      exact ⟨e :: es, f, y, (List.prefix_cons_inj e).mpr hpre, hf, hy, hp⟩
    · exact ⟨[], e, x', ⟨after, rfl⟩, hg, hx', hp⟩

structure Heard (x : Served) (shown : List Event) : Prop where
  serving : ∀ n, x.front = .serving n → x.execution.stage.IsUnderWay ∨ ∃ e ∈ shown, e.isLast
  past : ∀ n, x.front = .reported n ∨ x.front = .finished n → ∃ e ∈ shown, e.isLast

theorem Heard.of_closed {x : Served} (h : x.front = .closed) (shown : List Event) :
    Heard x shown :=
  ⟨fun n hn => by simp [h] at hn, fun n hn => by simp [h] at hn⟩

section

variable {s s' : Service} {e : Step} {id : Nat} {x x' : Served} {shown : Polled}
  {heard : List Event}

theorem Heard.polled (h : Heard x heard) (hr : x.isRegistered = true)
    (hf : Feeds s id x shown x' s') : Heard x' (heard ++ shown.event?.toList) := by
  cases hf with
  | closed hf => exact .of_closed hf _
  | finished => exact .of_closed rfl _
  | silenced => exact .of_closed rfl _
  | direct hf => simp [Served.isRegistered, hf] at hr
  | reported hf =>
    obtain ⟨ev, hev, hl⟩ := h.past _ (.inl hf)
    refine ⟨fun n hn => (by cases hn), fun n _ => ⟨ev, ?_, hl⟩⟩
    exact List.mem_append_left _ hev
  | @failed _ e' =>
    refine ⟨fun n hn => (by cases hn), fun n _ => ⟨.error e'.message, ?_, rfl⟩⟩
    simp [Polled.event?]
  | ended hf hp =>
    refine ⟨fun n hn => (by cases hn), fun n _ => ?_⟩
    rcases h.serving _ hf with hs | ⟨ev, hev, hl⟩
    · exact absurd (polls_of_poll hp).over_of_ended (Stage.not_isOver hs)
    · exact ⟨ev, List.mem_append_left _ hev, hl⟩
  | @shown _ e' _ hf hp =>
    refine ⟨fun n _ => ?_, fun n hn => by simp [hf] at hn⟩
    refine (polls_of_poll hp).stage_of_event.imp_right fun hl => ⟨e', ?_, hl⟩
    simp [Polled.event?]
  | pending hf hp =>
    exact ⟨fun n _ => .inl (polls_of_poll hp).stage_of_pending, fun n hn => by simp [hf] at hn⟩

theorem Heard.moves (h : Heard x heard) (hr : x.isRegistered = true) (hm : Moves s e id x x') :
    Heard x' (heard ++ ((feed id s e).bind Polled.event?).toList) := by
  cases hm with
  | rested hs =>
    rw [feed_other (Action.ne_poll hs)]
    simpa using ⟨h.serving, h.past⟩
  | polled ha hf hs =>
    rw [feed_polled ha, hs]
    exact h.polled hr hf
  | dropped ha =>
    refine .of_closed ?_ _
    obtain ⟨execution, front, cancelled⟩ := x
    cases front with
    | direct => simp [Served.isRegistered] at hr
    | _ => rfl
  | undropped ha =>
    rw [feed_other (by simp [ha])]
    simpa using h
  | tasked ha =>
    have ht := taskSteps_stepTask e.engine id x.cancelled (s.turn x)
    rw [feed_other (by simp [ha])]
    simpa using ⟨fun n hn => ht.stage_eq ▸ h.serving n hn, h.past⟩
  | worked ha =>
    have hw := workSteps_stepWork e.engine id (s.turn x)
    rw [feed_other (by simp [ha])]
    simpa using ⟨fun n hn => hw.stage_eq ▸ h.serving n hn, h.past⟩

end

theorem heard_run {g : Engine} {models : List LanguageModel} {es : List Step} {id : Nat}
    {x : Served} (hx : ((start g models).run es).served[id]? = some x)
    (hr : x.isRegistered = true) : Heard x ((start g models).events id es) := by
  revert hr
  refine run_induction (motive := fun es id x =>
    x.isRegistered = true → Heard x ((start g models).events id es)) ?_ ?_ hx
  · intro es e x ha hr
    obtain ⟨-, hf, r, hx⟩ := of_arrival ha
    refine ⟨fun n _ => .inl (by rw [hx]; exact .inl rfl), ?_⟩
    rintro n (hn | hn) <;> simp [hn, Front.streams] at hf
  · intro es e id x x' hx hm ih hr
    have hr := hm.carried.registered ▸ hr
    rw [events_concat]
    exact (ih hr).moves hr hm

theorem poll_of_loud {s : Service} {id : Nat} {x : Served} {n : UInt64}
    (hx : s.served[id]? = some x) (hf : x.front = .serving n) (hc : x.cancelled = true)
    (hl : x.execution.IsLoud) : ∃ e, (s.poll id).1 = .event e := by
  obtain ⟨x', hp⟩ := feeds_poll hx
  have poll {shown t} (hp : Execution.poll id x.cancelled (s.turn x) = (shown, t)) :
      (∃ e, shown = .event e) ∨ ∃ e, shown = .failure e ∧ e ≠ .cancelled := by
    have hpolls := polls_of_poll hp
    rw [hc] at hpolls
    exact IsLoud.poll (t := s.turn x) hl hpolls
  generalize (s.poll id).1 = shown, (s.poll id).2 = s' at hp
  cases hp with
  | failed => exact ⟨_, rfl⟩
  | ended => exact ⟨_, rfl⟩
  | shown => exact ⟨_, rfl⟩
  | silenced _ hp =>
    rcases poll hp with ⟨e, he⟩ | ⟨e, he, hne⟩
    · cases he
    · exact absurd (Polled.failure.inj he).symm hne
  | pending _ hp => rcases poll hp with ⟨e, he⟩ | ⟨e, he, -⟩ <;> cases he
  | _ => simp_all

section

variable {g : Engine} {models : List LanguageModel} {es : List Step} {id : Nat} {x : Served}

theorem quiet_or_loud (hx : ((start g models).run es).served[id]? = some x)
    (hr : x.isRegistered = true) (hc : x.cancelled = true)
    (hs : ∀ e ∈ (start g models).events id es, e.isLast = false) :
    Quiet x ∨ x.execution.IsLoud := by
  have hh := heard_run hx hr
  have silent : ¬ ∃ e ∈ (start g models).events id es, e.isLast = true := by
    rintro ⟨e, he, hl⟩
    simp [hs e he] at hl
  cases hf : x.front with
  | direct => simp [Served.isRegistered, hf] at hr
  | closed => exact .inl ⟨hc, .inl hf⟩
  | reported n => exact absurd (hh.past n (.inl hf)) silent
  | finished n => exact absurd (hh.past n (.inr hf)) silent
  | serving n =>
    rcases hh.serving n hf with hu | hl
    · exact (hushed_or_loud hu).imp_left fun hq => ⟨hc, .inr ⟨n, hf, hq⟩⟩
    · exact absurd hl silent

theorem serving_of_loud (hx : ((start g models).run es).served[id]? = some x)
    (hr : x.isRegistered = true) (hl : x.execution.IsLoud) : ∃ n, x.front = .serving n := by
  have hu : x.execution.stage.IsUnderWay := by
    rcases hl with ⟨hs, -⟩ | ⟨hs, -⟩
    · exact .inr (.inr (.inl hs))
    · exact .inr (.inr (.inr (.inr hs)))
  have ho : x.front.streams = false → False :=
    fun h => Stage.not_isOver hu ((told_run hx).isOver h)
  cases hf : x.front with
  | direct => simp [Served.isRegistered, hf] at hr
  | serving n => exact ⟨n, rfl⟩
  | reported n => exact (ho (by rw [hf]; rfl)).elim
  | finished n => exact (ho (by rw [hf]; rfl)).elim
  | closed => exact (ho (by rw [hf]; rfl)).elim

theorem events_eq_nil_iff (hx : ((start g models).run es).served[id]? = some x)
    (hr : x.isRegistered = true) (hc : x.cancelled = true)
    (hs : ∀ e ∈ (start g models).events id es, e.isLast = false) :
    ((∀ after : List Step, (∀ e ∈ after, Faultless e.engine) →
        ((start g models).run es).events id after = []) ↔ ¬ x.execution.IsLoud) ∧
      ∀ after, ((start g models).run es).events id after ≠ [] →
        x.execution.IsLoud ∨
          ∃ fs f y, fs ++ [f] <+: after ∧ ¬ Faultless f.engine ∧
            (((start g models).run es).run (fs ++ [f])).served[id]? = some y ∧
            y.execution.IsPanicked := by
  refine ⟨⟨?_, ?_⟩, ?_⟩
  · intro h hl
    obtain ⟨n, hf⟩ := serving_of_loud hx hr hl
    obtain ⟨e, he⟩ := poll_of_loud hx hf hc hl
    have hnil := h (Engine.bare.steps [.poll id]) (by simpa [Engine.steps] using faultless_bare)
    rw [Engine.steps, List.map_cons, events_cons, feed_polled rfl, he] at hnil
    cases hnil
  · intro hl after hg
    have hq := (quiet_or_loud hx hr hc hs).resolve_right hl
    by_contra hne
    obtain ⟨fs, f, y, hpre, hf, -⟩ := hq.run hx hne
    exact hf (hg f (hpre.subset (by simp)))
  · intro after hne
    rcases quiet_or_loud hx hr hc hs with hq | hl
    · exact .inr (hq.run hx hne)
    · exact .inl hl

end

theorem events_stopped_early :
    ((start .bare []).run (Engine.bare.steps
      [.handle (.execute (.ofTerminal "t" "end")), .poll 0, .handle (.stop ⟨"t", none⟩)])).events 0
        (Engine.bare.steps [.poll 0, .poll 0]) = [] := by
  have hx : ((start .bare []).run (Engine.bare.steps
      [.handle (.execute (.ofTerminal "t" "end")), .poll 0,
        .handle (.stop ⟨"t", none⟩)])).served[0]? = some _ := rfl
  refine (events_eq_nil_iff hx rfl rfl (by decide)).1.mpr ?_ _ ?_
  · rintro (⟨-, e, ht⟩ | ⟨hs, -⟩)
    · cases ht
    · cases hs
  · simpa [Engine.steps] using faultless_bare

theorem events_stopped_late :
    ∃ x, ((start .bare []).run (Engine.bare.steps Action.stopped)).served[0]? = some x ∧
      x.isRegistered = true ∧ x.cancelled = true ∧
      (∀ e ∈ (start .bare []).events 0 (Engine.bare.steps Action.stopped), e.isLast = false) ∧
      ((start .bare []).run (Engine.bare.steps Action.stopped)).events 0
        (Engine.bare.steps [.poll 0]) ≠ [] :=
  ⟨_, rfl, rfl, rfl, by decide, by decide⟩

end Service

end NodeRun
