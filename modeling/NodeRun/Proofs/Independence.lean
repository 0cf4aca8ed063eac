import NodeRun.Proofs.Ending
import NodeRun.Proofs.Progress
import NodeRun.Proofs.Relay
import NodeRun.Proofs.Tally

namespace NodeRun

namespace Error

def unnumbered : Error → Error
  | invocation (.executionPanicked _ m) => invocation (.executionPanicked 0 m)
  | invocation (.invocationPanicked _ m) => invocation (.invocationPanicked 0 m)
  | e => e

def Alike (e e' : Error) : Prop := e.unnumbered = e'.unnumbered

theorem unnumbered_eq_cancelled {e : Error} : e.unnumbered = .cancelled ↔ e = .cancelled := by
  unfold unnumbered
  split <;> simp

theorem Alike.cancelled_iff {e e' : Error} (h : e.Alike e') :
    e = .cancelled ↔ e' = .cancelled := by
  rw [← unnumbered_eq_cancelled, ← unnumbered_eq_cancelled (e := e'), h]

end Error

namespace Timestamps

def blank (t : Timestamps) : Timestamps :=
  ⟨t.startedAt.map fun _ => 0, t.finishedAt.map fun _ => 0⟩

end Timestamps

namespace ExecutionState

def untimed (s : ExecutionState) : ExecutionState :=
  { s with timestamps := s.timestamps.map Timestamps.blank }

end ExecutionState

namespace Event

inductive Alike : Event → Event → Prop where
  | state {node : String} {s s' : ExecutionState} (h : s.untimed = s'.untimed) :
    Alike (.componentState node s) (.componentState node s')
  | error {e e' : Error} (h : e.Alike e') : Alike (.error e.message) (.error e'.message)
  | same (e : Event) : Alike e e

end Event

inductive SameResult {α : Type} (R : α → α → Prop) : Except Error α → Except Error α → Prop where
  | ok {a b : α} (h : R a b) : SameResult R (.ok a) (.ok b)
  | error {e e' : Error} (h : e.Alike e') : SameResult R (.error e) (.error e')

inductive SameReply : Reply Prediction → Reply Prediction → Prop where
  | ok (p : Prediction) : SameReply (.ok p) (.ok p)
  | error {e e' : Error} (h : e.Alike e') : SameReply (.error e) (.error e')
  | panic (m : String) : SameReply (.panic m) (.panic m)

theorem SameReply.refl : (reply : Reply Prediction) → SameReply reply reply
  | .ok p => .ok p
  | .error _ => .error rfl
  | .panic m => .panic m

theorem SameReply.orPanic {reply reply' : Reply Prediction} (h : SameReply reply reply')
    (panic? : Option String) : SameReply (.orPanic panic? reply) (.orPanic panic? reply') := by
  cases panic? with
  | none => exact h
  | some m => exact .panic m

namespace Execution

section

variable {g : Engine} {models : List LanguageModel} {id id' : Nat} {r : ExecuteRequest}
  {traced : Bool} {result result' : Except Error Prediction}

theorem flushEnd_same (h : SameResult Eq result result') :
    SameReply (flushEnd g r traced result) (flushEnd g r traced result') := by
  refine SameReply.orPanic ?_ _
  cases h with
  | ok h =>
    cases h
    exact .ok _
  | error h => exact .error h

theorem reportEnd_same (h : SameResult Eq result result') :
    SameReply (reportEnd g r traced result) (reportEnd g r traced result') := by
  cases h with
  | ok h =>
    cases h
    exact .refl _
  | error h =>
    simp only [reportEnd, h.cancelled_iff]
    exact (flushEnd_same (.error h)).orPanic _

variable (g models id id' r traced)

theorem invokeEnd_same (reply : Reply Prediction) :
    SameReply (invokeEnd g id r traced reply) (invokeEnd g id' r traced reply) := by
  refine reportEnd_same ?_
  cases reply with
  | ok p => exact .ok rfl
  | error e => exact .error rfl
  | panic m => exact .error rfl

theorem parseEnd_same (m : Module) :
    SameReply (parseEnd g models id r traced m) (parseEnd g models id' r traced m) := by
  unfold parseEnd
  split
  · exact invokeEnd_same g id id' r traced _
  · exact .refl _

theorem buildEnd_same :
    SameReply (buildEnd g models id r traced) (buildEnd g models id' r traced) := by
  unfold buildEnd
  split
  · exact .refl _
  · split
    · exact parseEnd_same g models id id' r traced _
    · exact .refl _
    · exact .refl _

/-- The number of an execution only shows in the errors of tasks that panic. -/
theorem wholeEnd_same : SameReply (wholeEnd g models id r) (wholeEnd g models id' r) :=
  ((buildEnd_same g models id id' r _).orPanic _).orPanic _

theorem script_same (started started' ended ended' : Int64) :
    List.Forall₂ (SameResult Event.Alike) (script g models id r started ended)
      (script g models id' r started' ended') := by
  unfold script
  refine .cons (.ok (.same _)) ?_
  split
  · exact .cons (.error rfl) .nil
  · refine .cons (.ok (.state rfl)) (.cons ?_ .nil)
    have h := wholeEnd_same g models id id' r
    generalize wholeEnd g models id r = reply, wholeEnd g models id' r = reply' at h
    cases h with
    | ok p => exact .ok (.state rfl)
    | error h => exact .error h
    | panic m => exact .error rfl

end

end Execution

namespace Service

open Execution LanguageModel

def relay : List (Except Error Event) → List Event
  | [] => [.done]
  | .ok e :: items => e :: relay items
  | .error e :: _ => if e = .cancelled then [] else [.error e.message, .done]

theorem relay_append (events : List Event) (items : List (Except Error Event)) :
    relay (events.map .ok ++ items) = events ++ relay items := by
  induction events with
  | nil => rfl
  | cons e events ih => simp [relay, ih]

theorem Relayed.eq_relay {items : List (Except Error Event)} {events : List Event}
    (h : Relayed items events) : events = relay items := by
  cases h with
  | succeeded => simpa [relay] using (relay_append _ []).symm
  | failed he => simp [relay_append, relay, he]
  | silenced => simp [relay_append, relay]

theorem relay_alike {items items' : List (Except Error Event)}
    (h : List.Forall₂ (SameResult Event.Alike) items items') :
    List.Forall₂ Event.Alike (relay items) (relay items') := by
  induction h with
  | nil => exact .cons (.same _) .nil
  | cons h _ ih =>
    cases h with
    | ok h => exact .cons h ih
    | error h =>
      simp only [relay, h.cancelled_iff]
      split
      · exact .nil
      · exact .cons (.error h) (.cons (.same _) .nil)

def PolledToEnd (s : Service) (id : Nat) (es : List Step) : Prop :=
  ∃ pre e, Takes es pre e ∧ id < (s.run pre).served.length ∧ (∀ f ∈ pre, f.action ≠ .drop id) ∧
    feed id (s.run pre) e = some .ended

end Service

namespace Command

def request? : Command → Option ExecuteRequest
  | execute r => some r
  | _ => none

end Command

namespace Step

def command? (e : Step) : Option Command :=
  match e.action with
  | .handle c => some c
  | _ => none

def request? (e : Step) : Option ExecuteRequest :=
  match e.action with
  | .handle (.execute r) => some r
  | .launch r _ => some r
  | _ => none

end Step

namespace LanguageModel

def renewed (m : LanguageModel) : LanguageModel := .ofSource m.source

theorem sources_renewed (models : List LanguageModel) :
    sources (models.map renewed) = sources models := by
  simp [sources, renewed, ofSource, Function.comp_def]

end LanguageModel

namespace Service

open Execution LanguageModel

structure Serves (g : Engine) (rs : List ExecuteRequest) (es : List Step) : Prop where
  engine : ∀ e ∈ es, e.engine = g
  commands : es.filterMap Step.command? = rs.map .execute
  unlaunched : ∀ e ∈ es, ∀ r b, e.action ≠ .launch r b

def requested (s : Service) : List ExecuteRequest := s.served.map fun x => x.execution.request

theorem requested_act (s : Service) (e : Step) :
    (s.act e).requested = s.requested ++ e.request?.toList := by
  obtain ⟨xs, hxs, hlen⟩ := s.act_served e
  have hold : xs.map (fun x => x.execution.request) = s.requested := by
    refine List.ext_getElem (by simpa [requested] using hlen) fun i hi hi' => ?_
    have hx : i < xs.length := by simpa using hi
    have hs : i < s.served.length := hlen ▸ hx
    obtain ⟨x', hx', hm⟩ := moves_act (e := e) (List.getElem?_eq_getElem hs)
    rw [hxs, List.getElem?_append_left hx, List.getElem?_eq_getElem hx] at hx'
    simp only [requested, List.getElem_map, Option.some.inj hx', hm.carried.request]
  have hnew : (s.arrival e).map (fun x => x.execution.request) = e.request?.toList := by
    unfold arrival Step.request?
    split <;> simp_all [ofRequest]
  rw [requested, hxs, List.map_append, hold, hnew]

theorem requested_run (g : Engine) (models : List LanguageModel) (es : List Step) :
    ((start g models).run es).requested = es.filterMap Step.request? := by
  induction es using List.reverseRecOn with
  | nil => rfl
  | append_singleton es e ih =>
    rw [run_append, run_cons, run_nil, requested_act, ih, List.filterMap_append]
    cases h : e.request? <;> simp [h]

section

variable {g : Engine} {models : List LanguageModel} {rs : List ExecuteRequest}
  {es : List Step} {id : Nat} {x : Served} {r : ExecuteRequest}

theorem Serves.requests (h : Serves g rs es) : es.filterMap Step.request? = rs := by
  have hrequest : ∀ e ∈ es, e.request? = e.command?.bind Command.request? := by
    intro e he
    have hl := h.unlaunched e he
    unfold Step.request? Step.command?
    cases ha : e.action with
    | launch r b => exact absurd ha (hl r b)
    | handle c => cases c <;> rfl
    | _ => rfl
  rw [List.filterMap_congr hrequest, ← List.filterMap_filterMap, h.commands, List.filterMap_map]
  exact List.filterMap_some

theorem Serves.request_eq (h : Serves g rs es)
    (hx : ((start g models).run es).served[id]? = some x) : rs[id]? = some x.execution.request := by
  rw [← h.requests, ← requested_run g models es, requested, List.getElem?_map, hx]
  rfl

theorem Serves.registered (h : Serves g rs es)
    (hx : ((start g models).run es).served[id]? = some x) : x.isRegistered = true := by
  have hl := h.unlaunched
  revert hl
  refine run_induction (motive := fun es id x =>
    (∀ e ∈ es, ∀ r b, e.action ≠ .launch r b) → x.isRegistered = true) ?_ ?_ hx
  · intro es e x ha hl
    unfold arrival at ha
    split at ha
    · cases ha
      rfl
    · rename_i r b hlaunch
      exact absurd hlaunch (hl e (by simp) r b)
    · cases ha
  · intro es e id x x' _ hm ih hl
    rw [hm.carried.registered]
    exact ih fun f hf => hl f (List.mem_append_left _ hf)

theorem Serves.uncancelled (h : Serves g rs es) (hrs : (rs.map ExecuteRequest.traceId).Nodup)
    (hx : ((start g models).run es).served[id]? = some x) : x.cancelled = false := by
  by_contra hc
  obtain ⟨pre, e, ht, hh, c, ha, hends⟩ :=
    (cancelled_iff hx (h.registered hx)).mp (by simpa using hc)
  obtain ⟨post, rfl⟩ := ht
  have hmem : c ∈ rs.map Command.execute := by
    rw [← h.commands]
    exact List.mem_filterMap.mpr ⟨e, by simp, by simp [Step.command?, ha]⟩
  obtain ⟨r, -, rfl⟩ := List.mem_map.mp hmem
  -- the execution was there before the command, and so its request comes before that of the command
  have hid : id < (pre.filterMap Step.request?).length := by
    rw [← requested_run g models pre, requested, List.length_map]
    exact holds_lt (held_run g models pre) hh
  have hrs' : rs = pre.filterMap Step.request? ++ r :: post.filterMap Step.request? := by
    rw [← h.requests]
    simp [Step.request?, ha]
  have hbefore : x.execution.request ∈ pre.filterMap Step.request? := by
    have heq := h.request_eq hx
    rw [hrs', List.getElem?_append_left hid] at heq
    exact List.mem_of_getElem? heq
  rw [hrs', List.map_append, List.map_cons, List.nodup_middle, List.nodup_cons] at hrs
  exact hrs.1 (List.mem_append_left _ (List.mem_map.mpr ⟨_, hbefore, hends.symm⟩))

theorem closed_of_feed (hx : ((start g models).run es).served[id]? = some x)
    (hr : x.isRegistered = true) {e : Step}
    (hend : feed id ((start g models).run es) e = some .ended) :
    e.action = .poll id ∧ ∃ y, ((start g models).run (es ++ [e])).served[id]? = some y ∧
      y.front = .closed ∧ x.Carried y ∧ y.cancelled = x.cancelled := by
  have ha : e.action = .poll id := by
    by_contra ha
    rw [feed_other ha] at hend
    cases hend
  obtain ⟨y, hp⟩ := feeds_poll hx
  rw [feed_polled ha] at hend
  rw [Option.some.inj hend] at hp
  have hy : ((start g models).run (es ++ [e])).served[id]? = some y := by
    simpa [act, ha] using hp.entry hx
  exact ⟨ha, y, hy, hp.shut hr, hp.carried, hp.cancelled_eq⟩

theorem Serves.events_eq {initial : List LanguageModel} (h : Serves g rs es)
    (hrs : (rs.map ExecuteRequest.traceId).Nodup) (hr : rs[id]? = some r)
    (hend : PolledToEnd (start g initial) id es) (hs : sources initial = sources models)
    (hf : ∀ m ∈ models, m.IsFunction) (hg : g.tracer.IsTimeless) :
    ∃ started ended,
      (start g initial).events id es = relay (script g models id r started ended) := by
  obtain ⟨pre, e, ⟨post, rfl⟩, hid, hd, hshown⟩ := hend
  have hx := List.getElem?_eq_getElem hid
  generalize ((start g initial).run pre).served[id] = x at hx
  obtain ⟨x', hx', hcar⟩ := carried_run hx (e :: post)
  rw [← run_append, List.append_cons] at hx'
  have hreg : x.isRegistered = true := hcar.registered ▸ h.registered hx'
  have hc : x.cancelled = false := by
    by_contra hc
    have hc' := hcar.cancelled (by simpa using hc)
    rw [h.uncancelled hrs hx'] at hc'
    cases hc'
  obtain rfl : r = x.execution.request := by
    rw [← hcar.request]
    exact Option.some.inj (hr.symm.trans (h.request_eq hx'))
  obtain ⟨hrelayed, -, hafter⟩ := events_relayed hx hreg hc hd hshown
  obtain ⟨ha, y, hy, hfront, hcarried, hyc⟩ := closed_of_feed hx hreg hshown
  have hd' : ∀ f ∈ pre ++ [e], f.action ≠ .drop id := by
    simpa [or_imp, forall_and, ha] using hd
  have he : ∀ f ∈ pre ++ [e], f.engine = g := fun f hfm =>
    h.engine f (List.mem_append_left _ hfm)
  -- Nothing came in its way before its feed ended, and nothing that comes later shows in it.
  obtain ⟨-, told⟩ := onCourse_run hy hs hf hg he hd' (hyc.trans hc)
  obtain ⟨started, ended, hitems⟩ := told.said.of_over (told.isOver (by rw [hfront]; rfl))
  refine ⟨started, ended, ?_⟩
  have hevents : (start g initial).events id (pre ++ [e] ++ post) =
      (start g initial).events id (pre ++ [e]) := by
    rw [events, observed_append]
    exact (congrArg _ (hafter post)).trans (List.append_nil _)
  rw [hevents, hrelayed.eq_relay, hitems, hcarried.request]

theorem engine_of_steps {as : List Action} {e : Step} (he : e ∈ g.steps as) : e.engine = g := by
  obtain ⟨a, -, rfl⟩ := List.mem_map.mp he
  rfl

theorem serves_steps {as : List Action} {id : Nat} (has : ∀ a ∈ as, Action.Carries id a) :
    Serves g [] (g.steps as) where
  engine _ := engine_of_steps
  commands := by
    rw [List.map_nil, List.filterMap_eq_nil_iff]
    intro e he
    obtain ⟨a, ha, rfl⟩ := List.mem_map.mp he
    have hc := has a ha
    cases a <;> first | rfl | exact hc.elim
  unlaunched := by
    intro e he r b hl
    obtain ⟨a, ha, rfl⟩ := List.mem_map.mp he
    subst hl
    exact has _ ha

theorem Serves.append {rs' : List ExecuteRequest} {fs : List Step} (h : Serves g rs es)
    (h' : Serves g rs' fs) : Serves g (rs ++ rs') (es ++ fs) where
  engine := by simpa [or_imp, forall_and] using ⟨h.engine, h'.engine⟩
  commands := by simp [h.commands, h'.commands]
  unlaunched := by
    intro e he
    rcases List.mem_append.mp he with he | he
    · exact h.unlaunched e he
    · exact h'.unlaunched e he

theorem serves_execute (g : Engine) (r : ExecuteRequest) :
    Serves g [r] [⟨g, .handle (.execute r)⟩] where
  engine := by simp
  commands := rfl
  unlaunched := by simp

theorem announced_alone (g : Engine) (models : List LanguageModel) (r : ExecuteRequest) :
    ∃ x, ((start g models).run [⟨g, .handle (.execute r)⟩]).served[0]? = some x ∧
      x.isRegistered = true ∧
      stream 0 ((start g models).run [⟨g, .handle (.execute r)⟩]) ⟨g, .poll 0⟩ =
        some (.event announcement) := by
  obtain ⟨n, hn⟩ : ∃ n, g.config.permits = n + 1 :=
    Nat.exists_eq_succ_of_ne_zero (by unfold EngineConfig.permits; omega)
  have hx : ((start g models).run [⟨g, .handle (.execute r)⟩]).served[0]? =
      some ⟨.ofRequest r, .serving 0, false⟩ := rfl
  have hg : (((start g models).run [⟨g, .handle (.execute r)⟩]).turn
      ⟨.ofRequest r, .serving 0, false⟩).gate.take? = some ⟨n, [], []⟩ := by
    change (Gate.ofLimit g.config.permits).take? = _
    rw [hn]
    rfl
  have hp : (Execution.poll 0 false (((start g models).run [⟨g, .handle (.execute r)⟩]).turn
      ⟨.ofRequest r, .serving 0, false⟩)).1 = .event announcement := by
    simp only [Execution.poll, turn_self, ofRequest, pollIdle, Bool.false_eq_true, if_false] at hg ⊢
    rw [hg]
    rfl
  exact ⟨_, hx, rfl, stream_polled rfl hx rfl (Prod.ext hp rfl)⟩

theorem exists_alone (g : Engine) (models : List LanguageModel) (r : ExecuteRequest) :
    ∃ alone, Serves g [r] alone ∧ PolledToEnd (start g models) 0 alone := by
  obtain ⟨x, hx, hreg, hshown⟩ := announced_alone g models r
  let first : List Step := [⟨g, .handle (.execute r)⟩]
  let poll : Step := ⟨g, .poll 0⟩
  -- The announcement is the first item, and from there on the execution can be finished.
  obtain ⟨y, hy, hc⟩ := carried_run hx [poll]
  rw [← run_append] at hy
  have hi : (start g models).items 0 (first ++ [poll]) ≠ [] := by
    rw [items_concat, hshown]
    simp [Polled.item?]
  obtain ⟨as, has, hend⟩ := finishes_run hy (hc.registered.trans hreg) hi
  have hserves : Serves g [r] (first ++ [poll] ++ g.steps as ++ [poll]) := by
    have hcarries : ∀ a ∈ [.poll 0] ++ as ++ [.poll 0], Action.Carries 0 a := by
      simpa [or_imp, forall_and, Action.Carries] using has
    simpa [first, poll, Engine.steps] using (serves_execute g r).append (serves_steps hcarries)
  refine ⟨_, hserves, first ++ [poll] ++ g.steps as, poll, List.prefix_refl _, ?_, ?_, hend⟩
  · obtain ⟨z, hz, -⟩ := carried_run hy (g.steps as)
    rw [← run_append] at hz
    exact (List.getElem?_eq_some_iff.mp hz).1
  · intro f hf hdrop
    simp only [first, poll, Engine.steps, List.cons_append, List.nil_append, List.mem_cons,
      List.mem_map] at hf
    rcases hf with rfl | rfl | ⟨a, ha, rfl⟩
    · cases hdrop
    · cases hdrop
    · subst hdrop
      exact has _ ha

structure Independent (g : Engine) (models : List LanguageModel) (rs : List ExecuteRequest)
    (es : List Step) : Prop where
  alike : ∀ {id : Nat} {r : ExecuteRequest}, rs[id]? = some r →
    PolledToEnd (start g models) id es →
    ∀ {alone : List Step}, Serves g [r] alone →
      PolledToEnd (start g (models.map renewed)) 0 alone →
      List.Forall₂ Event.Alike ((start g models).events id es)
        ((start g (models.map renewed)).events 0 alone)
  alone : ∀ r ∈ rs, ∃ alone, Serves g [r] alone ∧
    PolledToEnd (start g (models.map renewed)) 0 alone
  counted : ∀ {i : Nat} {m : LanguageModel}, models[i]? = some m →
    ((start g models).run es).site.models[i]? =
      some { m with calls := m.calls + ((start g models).run es).site.wanted i }

theorem independent_run (hf : ∀ m ∈ models, m.IsFunction) (hg : g.tracer.IsTimeless)
    (hrs : (rs.map ExecuteRequest.traceId).Nodup) (h : Serves g rs es) :
    Independent g models rs es where
  alike hr hend _ hserves hend' := by
    obtain ⟨started, ended, hevents⟩ := h.events_eq hrs hr hend rfl hf hg
    obtain ⟨started', ended', hevents'⟩ :=
      hserves.events_eq (by simp) rfl hend' (sources_renewed models) hf hg
    rw [hevents, hevents']
    exact relay_alike (script_same g models _ _ _ _ _ _ _)
  alone r _ := exists_alone g _ r
  counted hi := models_run g models es hi

end

end Service

def Engine.sharing : Engine :=
  { Engine.bare with
    compiler := { Engine.bare.compiler with provider := fun _ => .ok ⟨0, "m"⟩ } }

def ExecuteRequest.ofSignature (trace : String) : ExecuteRequest :=
  ⟨trace,
    { Workflow.new "w" (.named "m") with
      nodes := [⟨"n", .signature
        ⟨{ Component.unset with outputs := some [.named "a" .str] }, none, none, none⟩⟩] },
    "n", ∅⟩

def LanguageModel.stale : LanguageModel :=
  ⟨.canned (.named "m"), 3, Table.empty.insert "AnonymousSignature:\x7b\x7d" ⟨∅, none⟩⟩

def Action.shared : List Action :=
  [.handle (.execute (.ofSignature "t")), .handle (.execute (.ofSignature "u")),
    .poll 1, .poll 0, .poll 1, .poll 0, .poll 1, .poll 0,
    .task 0, .task 1, .task 0, .task 1, .task 0, .task 1, .task 0, .task 1,
    .work 1, .work 0, .work 1, .work 0,
    .task 1, .task 0, .task 1, .task 0, .task 1, .task 0, .task 1, .task 0, .poll 1, .poll 1]

def Action.sole : List Action :=
  [.handle (.execute (.ofSignature "u")), .poll 0, .poll 0, .poll 0,
    .task 0, .task 0, .task 0, .task 0, .work 0, .work 0,
    .task 0, .task 0, .task 0, .task 0, .poll 0, .poll 0]

namespace Service

open LanguageModel

theorem independent_shared :
    List.Forall₂ Event.Alike
        ((start .sharing [.stale]).events 1 (Engine.sharing.steps (Action.shared ++ [.poll 1])))
        ((start .sharing ([stale].map renewed)).events 0
          (Engine.sharing.steps (Action.sole ++ [.poll 0]))) ∧
      ((start .sharing [.stale]).events 1
        (Engine.sharing.steps (Action.shared ++ [.poll 1]))).map Event.tag =
          [.debug, .componentState, .componentState, .done] ∧
      ((start .sharing [.stale]).run
        (Engine.sharing.steps (Action.shared ++ [.poll 1]))).site.models[0]? =
          some { stale with calls := 5 } := by
  have hserves : Serves .sharing [.ofSignature "t", .ofSignature "u"]
      (Engine.sharing.steps (Action.shared ++ [.poll 1])) :=
    ⟨fun _ => engine_of_steps, rfl, by simp [Engine.steps, Action.shared]⟩
  have halone : Serves .sharing [.ofSignature "u"]
      (Engine.sharing.steps (Action.sole ++ [.poll 0])) :=
    ⟨fun _ => engine_of_steps, rfl, by simp [Engine.steps, Action.sole]⟩
  have hend : PolledToEnd (start .sharing [.stale]) 1
      (Engine.sharing.steps (Action.shared ++ [.poll 1])) :=
    ⟨Engine.sharing.steps Action.shared, ⟨.sharing, .poll 1⟩, List.prefix_refl _, by decide,
      by decide, by rfl⟩
  have hend' : PolledToEnd (start .sharing ([stale].map renewed)) 0
      (Engine.sharing.steps (Action.sole ++ [.poll 0])) :=
    ⟨Engine.sharing.steps Action.sole, ⟨.sharing, .poll 0⟩, List.prefix_refl _, by decide,
      by decide, by rfl⟩
  have h : Independent .sharing [.stale] [.ofSignature "t", .ofSignature "u"]
      (Engine.sharing.steps (Action.shared ++ [.poll 1])) :=
    independent_run (by simp [IsFunction, stale]) (fun _ => rfl) (by decide) hserves
  have hwanted : ((start .sharing [.stale]).run
      (Engine.sharing.steps (Action.shared ++ [.poll 1]))).site.wanted 0 = 2 := by decide +kernel
  refine ⟨h.alike rfl hend halone hend', by decide +kernel, ?_⟩
  rw [h.counted rfl, hwanted]
  rfl

end Service

end NodeRun
