import NodeRun.Proofs.Silence

namespace NodeRun

theorem bind_ne_cancelled {α β : Type} {x : Except Error α} {f : α → Except Error β}
    (hx : x ≠ .error .cancelled) (hf : ∀ a, f a ≠ .error .cancelled) :
    (x >>= f) ≠ .error .cancelled := by
  cases x with
  | error e => exact fun h => hx (congrArg Except.error (Except.error.inj h))
  | ok a => exact hf a

namespace Field

theorem coerceRaw_ne_cancelled (identifier : String) (type : FieldType) (raw : Option String) :
    coerceRaw identifier type raw ≠ .error .cancelled := by
  unfold coerceRaw
  split
  · simp
  · split <;> simp

theorem coerceOnto_ne_cancelled (t : Settings) (fs : List Field) :
    coerceOnto t fs ≠ .error .cancelled := by
  induction fs generalizing t with
  | nil => simp [coerceOnto]
  | cons f fs ih => exact bind_ne_cancelled (coerceRaw_ne_cancelled _ _ _) fun v => ih _

theorem coerceAll_ne_cancelled (fs : List Field) : coerceAll fs ≠ .error .cancelled := by
  unfold coerceAll
  split
  · simp
  · exact coerceOnto_ne_cancelled _ _

theorem autoparse_ne_cancelled (fs : List Field) (inputs : Table String) :
    autoparse fs inputs ≠ .error .cancelled := by
  unfold autoparse
  generalize (∅ : Settings) = t
  induction fs generalizing t with
  | nil => simp [autoparseOnto]
  | cons f fs ih => exact bind_ne_cancelled (coerceRaw_ne_cancelled _ _ _) fun v => ih _

end Field

namespace Compiler

inductive SaysCancelled (c : Compiler) : Prop where
  | provider {config : ModelConfig} (h : c.provider config = .error .cancelled)
  | retriever {cls : String} {f : BackendFactory} {settings : Settings}
    (hf : c.retrievers.get? cls = some f) (h : f settings = .error .cancelled)
  | evaluator {cls : String} (h : c.evaluators.get? cls = some (.error .cancelled))

section

variable {c : Compiler} {w : Workflow}

theorem Refuses.ne_cancelled {k : NodeKind} {e : Error} (h : c.Refuses w k e) :
    e ≠ .cancelled := by
  rintro rfl
  cases h with
  | schema hs =>
    obtain ⟨f, hf⟩ := Schema.error_of_ofSignature hs
    cases hf
  | model hs hc => cases ModelConfig.error_of_ofChoice hc
  | retrieverSettings hn hf hs => exact Field.coerceAll_ne_cancelled _ hs
  | evaluatorSettings hn hi hc hs => exact Field.coerceAll_ne_cancelled _ hs

theorem Returns.saysCancelled {call : Effect} (h : c.Returns .cancelled call) : c.SaysCancelled := by
  cases h with
  | provider h => exact .provider h
  | factory hf h => exact .retriever hf h
  | constructor h => exact .evaluator h

theorem Compiles.saysCancelled {k : NodeKind} {x : Compiled} (h : c.Compiles w k x)
    (hx : x.1 = .error .cancelled) : c.SaysCancelled := by
  cases h with
  | refused h =>
    cases hx
    exact absurd rfl h.ne_cancelled
  | asked h => exact (h.eq_error_iff.mp hx).saysCancelled
  | made => cases hx

theorem says_of_compile {n : Node} {es : List Effect}
    (h : c.compile n w = (.error .cancelled, es)) : c.SaysCancelled :=
  (c.compiles w n.kind).saysCancelled (congrArg Prod.fst h)

end

end Compiler

namespace Task

def IsCancelled : Task → Prop
  | reporting _ result => result = .error .cancelled
  | flushing _ result => result = .error .cancelled
  | settling result => result = .error .cancelled
  | ended reply => reply = .error .cancelled
  | _ => False

end Task

namespace Execution

theorem TaskSteps.cancelled_from {g : Engine} {id : Nat} {t t' : Turn}
    (hs : TaskSteps g id false t t') (ha : t.self.abandoned = false)
    (hc : t'.self.task.IsCancelled) :
    t.self.task.IsCancelled ∨ g.compiler.SaysCancelled ∨
      t.self.work = .ended (.error .cancelled) := by
  have hrun : Execution.stopped false t.self = false := by simp [Execution.stopped, ha]
  -- Nobody has stopped the task, so the error is the compiler's, that of the work, or was there.
  cases hs with
  | absent => exact .inl hc
  | ended => exact .inl hc
  | unreplied => exact .inl hc
  | untargeted _ _ ht =>
    cases hc
    exact absurd ht (target_ne_cancelled _)
  | unbuilt _ _ _ hb =>
    cases hc
    exact .inr (.inl (Compiler.says_of_compile hb))
  | unparsed _ hi =>
    cases hc
    exact absurd hi (Field.autoparse_ne_cancelled _ _)
  | unlaunched _ hs => simp [hrun] at hs
  | aborted _ hs => simp [hrun] at hs
  | stopped _ hs => simp [hrun] at hs
  | @replied _ r _ _ hw =>
    refine .inr (.inr (hw.trans (congrArg Work.ended ?_)))
    cases r with
    | ok p => cases hc
    | error e => cases hc; rfl
    | panic m => cases hc
  | unreported h => exact .inl (by rw [h]; exact hc)
  | reported _ he => exact absurd (Except.error.inj hc) he
  | flushed h => exact .inl (by rw [h]; exact hc)
  | @settled result h =>
    refine .inl ?_
    rw [h]
    cases result with
    | ok p => cases hc
    | error e => cases hc; rfl
  | _ => cases hc

theorem Polls.cancelled_from {id : Nat} {t t' : Turn}
    (hp : Polls id false t (.failure .cancelled) t') : t.self.task.IsCancelled := by
  cases hp with
  | refused _ hc => cases hc
  | left _ hc => cases hc
  | halted _ _ hc => cases hc
  | untargeted _ ht => exact absurd ht (target_ne_cancelled _)
  | failed _ hk =>
    rw [hk]
    rfl

theorem Polls.cancelled_task {id : Nat} {c : Bool} {t t' : Turn} {shown : Polled}
    (hp : Polls id c t shown t') (h : t'.self.task.IsCancelled) : t.self.task.IsCancelled := by
  cases hp with
  | spawned => cases h
  | exhausted => simpa [close_self] using h
  | _ => exact h

end Execution

def Action.collected : List Action :=
  .handle (.execute (.ofTerminal "t" "end")) :: (Action.toEnd 0 ++ [.poll 0, .poll 0])

def Engine.refusing : Engine :=
  { Engine.bare with
    compiler := { Engine.bare.compiler with
      evaluators := Table.empty.insert "e" (.error .cancelled) } }

def Action.refused : List Action :=
  [.handle (.execute ⟨"t",
      { Workflow.new "w" .unset with nodes := [⟨"n", .evaluator ⟨.unset, some "e", none⟩⟩] },
      "n", ∅⟩), .poll 0, .poll 0, .poll 0] ++ List.replicate 5 (.task 0)

namespace Service

open Execution

inductive Relayed : List (Except Error Event) → List Event → Prop where
  | succeeded {events : List Event} : Relayed (events.map .ok) (events ++ [.done])
  | failed {events : List Event} {e : Error} (he : e ≠ .cancelled) :
    Relayed (events.map .ok ++ [.error e]) (events ++ [.error e.message, .done])
  | silenced {events : List Event} : Relayed (events.map .ok ++ [.error .cancelled]) events

inductive Relays (dropped : Prop) : Front → List (Except Error Event) → List Event → Prop where
  | serving {n : UInt64} {events : List Event} :
    Relays dropped (.serving n) (events.map .ok) events
  | reported {n : UInt64} {events : List Event} {e : Error} (he : e ≠ .cancelled) :
    Relays dropped (.reported n) (events.map .ok ++ [.error e]) (events ++ [.error e.message])
  | finished {n : UInt64} {items : List (Except Error Event)} {events : List Event}
    (h : Relayed items events) : Relays dropped (.finished n) items events
  | closed {items : List (Except Error Event)} {events : List Event} (h : Relayed items events) :
    Relays dropped .closed items events
  | dropped {items : List (Except Error Event)} {events : List Event} (hd : dropped) :
    Relays dropped .closed items events

theorem Relays.imp {dropped dropped' : Prop} {front : Front} {items : List (Except Error Event)}
    {events : List Event} (h : Relays dropped front items events) (hd : dropped → dropped') :
    Relays dropped' front items events := by
  cases h with
  | serving => exact .serving
  | reported he => exact .reported he
  | finished h => exact .finished h
  | closed h => exact .closed h
  | dropped h => exact .dropped (hd h)

theorem Relays.nil (dropped : Prop) (n : UInt64) : Relays dropped (.serving n) [] [] := by
  have h : Relays dropped (.serving n) (([] : List Event).map .ok) [] := .serving
  exact h

theorem Relays.concat (dropped : Prop) (n : UInt64) (events : List Event) (e : Event) :
    Relays dropped (.serving n) (events.map .ok ++ [.ok e]) (events ++ [e]) := by
  have h : Relays dropped (.serving n) ((events ++ [e]).map .ok) (events ++ [e]) := .serving
  rwa [List.map_append] at h

section

variable {s s' : Service} {e : Step} {id : Nat} {x x' : Served} {shown : Polled} {dropped : Prop}
  {items : List (Except Error Event)} {events : List Event}

theorem Relays.polled (h : Relays dropped x.front items events) (hx : s.served[id]? = some x)
    (ha : e.action = .poll id) (hr : x.isRegistered = true) (hf : Feeds s id x shown x' s') :
    Relays dropped x'.front (items ++ ((stream id s e).bind Polled.item?).toList)
      (events ++ shown.event?.toList) := by
  have polled {shown t} (hs : x.front.streams = true)
      (hp : Execution.poll id x.cancelled (s.turn x) = (shown, t)) :
      ((stream id s e).bind Polled.item?).toList = shown.item?.toList := by
    rw [stream_polled ha hx hs hp]
    rfl
  -- A front that has seen the last item does not poll the execution again.
  have silent (hs : x.front.streams = false) :
      ((stream id s e).bind Polled.item?).toList = [] := by
    rw [stream_silent hx hs]
    rfl
  cases hf with
  | direct hf => simp [Served.isRegistered, hf] at hr
  | closed hf =>
    rw [silent (by rw [hf]; rfl)]
    simpa [Polled.event?] using h
  | finished hf =>
    rw [silent (by rw [hf]; rfl)]
    rw [hf] at h
    cases h with | finished h => exact .closed (by simpa [Polled.event?] using h)
  | reported hf =>
    rw [silent (by rw [hf]; rfl)]
    rw [hf] at h
    cases h with
    | reported he => exact .finished (by simpa [Polled.event?] using Relayed.failed he)
  | silenced hf hp =>
    rw [polled (by rw [hf]; rfl) hp]
    rw [hf] at h
    cases h with
    | serving => exact .closed (by simpa [Polled.event?, Polled.item?] using Relayed.silenced)
  | failed hf hp he =>
    rw [polled (by rw [hf]; rfl) hp]
    rw [hf] at h
    cases h with | serving => exact .reported he
  | ended hf hp =>
    rw [polled (by rw [hf]; rfl) hp]
    rw [hf] at h
    cases h with
    | serving => exact .finished (by simpa [Polled.event?, Polled.item?] using Relayed.succeeded)
  | shown hf hp =>
    rw [polled (by rw [hf]; rfl) hp]
    rw [hf] at h
    simp only [hf]
    cases h with
    | serving => exact .concat _ _ _ _
  | pending hf hp =>
    rw [polled (by rw [hf]; rfl) hp]
    simpa [Polled.event?, Polled.item?] using h

theorem Relays.moves (h : Relays dropped x.front items events) (hx : s.served[id]? = some x)
    (hr : x.isRegistered = true) (hm : Moves s e id x x') :
    Relays (dropped ∨ e.action = .drop id) x'.front
      (items ++ ((stream id s e).bind Polled.item?).toList)
      (events ++ ((feed id s e).bind Polled.event?).toList) := by
  have still {front : Front} (ha : e.action ≠ .poll id)
      (hs : Relays (dropped ∨ e.action = .drop id) front items events) :
      Relays (dropped ∨ e.action = .drop id) front
        (items ++ ((stream id s e).bind Polled.item?).toList)
        (events ++ ((feed id s e).bind Polled.event?).toList) := by
    rw [stream_other ha, feed_other ha]
    simpa using hs
  cases hm with
  | rested hs => exact still (Action.ne_poll hs) (h.imp .inl)
  | polled ha hf hs =>
    rw [feed_polled ha, hs]
    exact (h.polled hx ha hr hf).imp .inl
  | dropped ha =>
    refine still (by simp [ha]) ?_
    obtain ⟨execution, front, cancelled⟩ := x
    cases front with
    | direct => simp [Served.isRegistered] at hr
    | _ => exact .dropped (.inr ha)
  | undropped ha => exact still (by simp [ha]) (h.imp .inl)
  | tasked ha => exact still (by simp [ha]) (h.imp .inl)
  | worked ha => exact still (by simp [ha]) (h.imp .inl)

theorem Feeds.cancelled_task (hf : Feeds s id x shown x' s') :
    x'.execution.task.IsCancelled → x.execution.task.IsCancelled := by
  refine hf.keeps (P := fun y _ => y.task.IsCancelled → x.execution.task.IsCancelled) ?_ ?_
    fun h => h
  · intro shown t hp
    exact Polls.cancelled_task (t := s.turn x) hp
  · intro t _ ht
    simpa [close_self] using ht

theorem Told.unabandoned {whole : List (Except Error Event) → Prop}
    (ht : Told dropped whole x items) (h : x.execution.abandoned = false)
    (hf : Feeds s id x shown x' s') : x'.execution.abandoned = false := by
  refine ht.keeps (P := fun y _ => y.abandoned = false) hf ?_ ?_ h
  · intro shown t hp
    rw [hp.self_eq]
    exact h
  · intro t ho ha
    rwa [close_over ho]

theorem Feeds.shut (hf : Feeds s id x .ended x' s') (hr : x.isRegistered = true) :
    x'.front = .closed := by
  cases hf with
  | closed hf => exact hf
  | finished => rfl
  | silenced => rfl
  | direct hf => simp [Served.isRegistered, hf] at hr

theorem events_of_closed (hx : s.served[id]? = some x) (hf : x.front = .closed)
    (after : List Step) : s.events id after = [] := by
  induction after generalizing s x with
  | nil => rfl
  | cons e after ih =>
    obtain ⟨x', hx', hm⟩ := moves_act (e := e) hx
    have hnone : (feed id s e).bind Polled.event? = none := by
      by_cases ha : e.action = .poll id
      · simp [feed_polled ha, poll, hx, hf, Polled.event?]
      · rw [feed_other ha]
        rfl
    have hf' : x'.front = .closed := by
      cases hm with
      | rested => exact hf
      | polled _ hp => cases hp <;> simp_all
      | dropped => simp [hf, Front.shut]
      | undropped => exact hf
      | tasked => exact hf
      | worked => exact hf
    rw [events_cons, hnone, ih hx' hf']
    rfl

/-- In a run, a collaborator of the execution answered that it was cancelled: one that was called in
building its module, or the module itself. -/
def SaysCancelled (g : Engine) (models : List LanguageModel) (es : List Step) (id : Nat) : Prop :=
  ∃ pre e, Takes es pre e ∧ e.action = .task id ∧
    (e.engine.compiler.SaysCancelled ∨ ∃ y, ((start g models).run pre).served[id]? = some y ∧
      y.execution.work = .ended (.error .cancelled))

structure Undropped (g : Engine) (models : List LanguageModel) (es : List Step) (id : Nat)
    (x : Served) : Prop where
  abandoned : x.execution.abandoned = false
  task : x.execution.task.IsCancelled → SaysCancelled g models es id
  items : .error .cancelled ∈ (start g models).items id es → SaysCancelled g models es id

end

section

variable {g : Engine} {models : List LanguageModel} {es : List Step} {e : Step} {id : Nat}
  {x x' : Served}

theorem SaysCancelled.mono (h : SaysCancelled g models es id) (e : Step) :
    SaysCancelled g models (es ++ [e]) id := by
  obtain ⟨pre, f, ht, h⟩ := h
  exact ⟨pre, f, (takes_concat es e).mpr (.inl ht), h⟩

theorem cancelled_of_stream {s : Service} (hx : s.served[id]? = some x) (hc : x.cancelled = false)
    (h : (stream id s e).bind Polled.item? = some (.error .cancelled)) :
    x.execution.task.IsCancelled := by
  obtain ⟨shown, hs, hi⟩ := Option.bind_eq_some_iff.mp h
  obtain ⟨-, -, hp⟩ := of_stream hx hs
  have hpolls := polls_of_poll (Prod.ext hp rfl)
  rw [hc] at hpolls
  cases shown with
  | failure e =>
    cases hi
    exact hpolls.cancelled_from
  | _ => cases hi

theorem Undropped.moves (h : Undropped g models es id x)
    (hx : ((start g models).run es).served[id]? = some x)
    (hm : Moves ((start g models).run es) e id x x') (hc : x.cancelled = false)
    (hd : e.action ≠ .drop id) : Undropped g models (es ++ [e]) id x' := by
  refine ⟨?_, ?_, ?_⟩
  · cases hm with
    | rested => exact h.abandoned
    | polled _ hf => exact (told_run hx).unabandoned h.abandoned hf
    | dropped ha => exact absurd ha hd
    | undropped => exact h.abandoned
    | tasked =>
      have hs := taskSteps_stepTask e.engine id x.cancelled (((start g models).run es).turn x)
      rw [hs.self_eq]
      exact h.abandoned
    | worked =>
      have hs := workSteps_stepWork e.engine id (((start g models).run es).turn x)
      rw [hs.self_eq]
      exact h.abandoned
  -- If the task ends with `Cancelled` in this step, then it was said in this step.
  · intro hk
    cases hm with
    | rested => exact (h.task hk).mono e
    | polled _ hf => exact (h.task (hf.cancelled_task hk)).mono e
    | dropped ha => exact absurd ha hd
    | undropped => exact (h.task hk).mono e
    | tasked ha =>
      have hs := taskSteps_stepTask e.engine id x.cancelled (((start g models).run es).turn x)
      rw [hc] at hs hk
      have ht : Takes (es ++ [e]) es e := (takes_concat es e).mpr (.inr ⟨rfl, rfl⟩)
      rcases hs.cancelled_from h.abandoned hk with hk | hb | hw
      · exact (h.task hk).mono e
      · exact ⟨es, e, ht, ha, .inl hb⟩
      · exact ⟨es, e, ht, ha, .inr ⟨x, hx, hw⟩⟩
    | worked =>
      have hs := workSteps_stepWork e.engine id (((start g models).run es).turn x)
      rw [hs.self_eq] at hk
      exact (h.task hk).mono e
  · intro hi
    rw [items_concat, List.mem_append] at hi
    rcases hi with hi | hi
    · exact (h.items hi).mono e
    · exact (h.task (cancelled_of_stream hx hc (Option.mem_toList.mp hi))).mono e

theorem undropped_run (hx : ((start g models).run es).served[id]? = some x)
    (hc : x.cancelled = false) (hd : ∀ f ∈ es, f.action ≠ .drop id) :
    Undropped g models es id x := by
  revert hc hd
  refine run_induction (motive := fun es id x => x.cancelled = false →
    (∀ f ∈ es, f.action ≠ .drop id) → Undropped g models es id x) ?_ ?_ hx
  · intro es e x ha _ _
    obtain ⟨-, -, r, hr⟩ := of_arrival ha
    refine ⟨by rw [hr]; rfl, fun hk => ?_, fun hi => ?_⟩
    · rw [hr] at hk
      cases hk
    · rw [items_arrival] at hi
      cases hi
  · intro es e id x x' hx hm ih hc' hd
    have hc : x.cancelled = false := by
      by_contra hc
      simp [hm.carried.cancelled (by simpa using hc)] at hc'
    have h := ih hc fun f hf => hd f (List.mem_append_left _ hf)
    exact h.moves hx hm hc (hd e (by simp))

theorem relays_run (hx : ((start g models).run es).served[id]? = some x)
    (hr : x.isRegistered = true) :
    Relays (∃ f ∈ es, f.action = .drop id) x.front ((start g models).items id es)
      ((start g models).events id es) := by
  revert hr
  refine run_induction (motive := fun es id x => x.isRegistered = true →
    Relays (∃ f ∈ es, f.action = .drop id) x.front ((start g models).items id es)
      ((start g models).events id es)) ?_ ?_ hx
  · intro es e x ha hr
    obtain ⟨-, hf, -⟩ := of_arrival ha
    rw [items_arrival, events_arrival]
    cases hfront : x.front with
    | direct => simp [Served.isRegistered, hfront] at hr
    | serving n => exact .nil _ n
    | _ => simp [hfront, Front.streams] at hf
  · intro es e id x x' hx hm ih hr'
    have hr : x.isRegistered = true := hm.carried.registered ▸ hr'
    have hd : (∃ f ∈ es ++ [e], f.action = .drop id) =
        ((∃ f ∈ es, f.action = .drop id) ∨ e.action = .drop id) := by
      simp [or_and_right, exists_or]
    rw [items_concat, events_concat, hd]
    exact (ih hr).moves hx hr hm

theorem events_relayed (hx : ((start g models).run es).served[id]? = some x)
    (hr : x.isRegistered = true) (hc : x.cancelled = false) (hd : ∀ f ∈ es, f.action ≠ .drop id)
    (hend : feed id ((start g models).run es) e = some .ended) :
    Relayed ((start g models).items id (es ++ [e])) ((start g models).events id (es ++ [e])) ∧
      (.error .cancelled ∈ (start g models).items id (es ++ [e]) →
        SaysCancelled g models (es ++ [e]) id) ∧
      ∀ after, ((start g models).run (es ++ [e])).events id after = [] := by
  have ha : e.action = .poll id := by
    by_contra ha
    rw [feed_other ha] at hend
    cases hend
  have hd' : ∀ f ∈ es ++ [e], f.action ≠ .drop id := by
    intro f hf
    rcases List.mem_append.mp hf with hf | hf
    · exact hd f hf
    · rw [List.mem_singleton.mp hf, ha]
      simp
  obtain ⟨x', hp⟩ := feeds_poll hx
  rw [feed_polled ha] at hend
  rw [Option.some.inj hend] at hp
  have hx' : ((start g models).run (es ++ [e])).served[id]? = some x' := by
    simpa [act, ha] using hp.entry hx
  have hf : x'.front = .closed := hp.shut hr
  have hr' : x'.isRegistered = true := by simp [Served.isRegistered, hf]
  have hc' : x'.cancelled = false := hp.cancelled_eq.trans hc
  refine ⟨?_, (undropped_run hx' hc' hd').items, events_of_closed hx' hf⟩
  have h := relays_run hx' hr'
  rw [hf] at h
  cases h with
  | closed h => exact h
  | dropped hdrop =>
    obtain ⟨f, hf, ha⟩ := hdrop
    exact absurd ha (hd' f hf)

end

theorem events_relayed_whole :
    Relayed ((start .bare []).items 0 (Engine.bare.steps Action.collected ++ [⟨.bare, .poll 0⟩]))
        ((start .bare []).events 0 (Engine.bare.steps Action.collected ++ [⟨.bare, .poll 0⟩])) ∧
      ((start .bare []).events 0
        (Engine.bare.steps Action.collected ++ [⟨.bare, .poll 0⟩])).getLast? = some .done := by
  have hx : ((start .bare []).run (Engine.bare.steps Action.collected)).served[0]? = some _ := rfl
  exact ⟨(events_relayed hx rfl rfl (by decide) rfl).1, by decide⟩

theorem events_unfinished :
    ∃ x, ((start .refusing []).run (Engine.refusing.steps Action.refused)).served[0]? = some x ∧
      x.isRegistered = true ∧ x.cancelled = false ∧
      (∀ f ∈ Engine.refusing.steps Action.refused, f.action ≠ .drop 0) ∧
      feed 0 ((start .refusing []).run (Engine.refusing.steps Action.refused))
        ⟨.refusing, .poll 0⟩ = some .ended ∧
      ((start .refusing []).events 0
        (Engine.refusing.steps Action.refused ++ [⟨.refusing, .poll 0⟩])).map Event.tag =
          [.debug, .componentState] :=
  ⟨_, rfl, rfl, rfl, by decide, by decide, by decide⟩

end Service

end NodeRun
