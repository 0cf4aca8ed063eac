import Mathlib.Data.List.Induction
import NodeRun.Proofs.Transition
import NodeRun.Service.Session

/-!
Runs of a service: any sequence of what clients, tasks, modules and the clock can do to it. Every
step has an engine of its own, so that collaborators may answer otherwise at every call.
-/

namespace NodeRun

inductive Action where
  | handle (command : Command)
  | launch (request : ExecuteRequest) (cancelled : Bool)
  | cancel (id : Nat)
  | poll (id : Nat)
  | drop (id : Nat)
  | task (id : Nat)
  | work (id : Nat)
  | wait (now : Nat)
  deriving DecidableEq, Repr

structure Step where
  engine : Engine
  action : Action

def Engine.steps (g : Engine) (as : List Action) : List Step := as.map (⟨g, ·⟩)

def Action.subject? : Action → Option Nat
  | poll id => some id
  | drop id => some id
  | task id => some id
  | work id => some id
  | _ => none

theorem Action.ne_poll {a : Action} {id : Nat} (h : a.subject? ≠ some id) : a ≠ .poll id := by
  rintro rfl
  exact h rfl

namespace Front

def shut : Front → Front
  | direct => direct
  | _ => closed

def streams : Front → Bool
  | direct => true
  | serving _ => true
  | _ => false

end Front

namespace Served

def isRegistered (x : Served) : Bool := x.front ≠ .direct

def nodeId (x : Served) : String := x.execution.request.nodeId

structure Carried (x x' : Served) : Prop where
  request : x'.execution.request = x.execution.request
  registered : x'.isRegistered = x.isRegistered
  cancelled : x.cancelled = true → x'.cancelled = true

theorem Carried.traceId {x x' : Served} (h : Carried x x') : x'.traceId = x.traceId :=
  congrArg ExecuteRequest.traceId h.request

theorem Carried.nodeId {x x' : Served} (h : Carried x x') : x'.nodeId = x.nodeId :=
  congrArg ExecuteRequest.nodeId h.request

end Served

namespace Polled

def event? : Polled → Option Event
  | event e => some e
  | _ => none

end Polled

namespace Service

/-- The token of an execution that was launched belongs to the one who launched it. -/
def cancelLaunched (s : Service) (id : Nat) : Service :=
  match s.served[id]? with
  | some x => if x.front = .direct then s.cancel id else s
  | none => s

def act (s : Service) (e : Step) : Service :=
  match e.action with
  | .handle c => (s.handle c).2
  | .launch r b => (s.launch r b).2
  | .cancel id => s.cancelLaunched id
  | .poll id => (s.poll id).2
  | .drop id => s.drop id
  | .task id => s.stepTask e.engine id
  | .work id => s.stepWork e.engine id
  | .wait now => s.waitUntil now

def cancels (id : Nat) (s : Service) (e : Step) : Bool :=
  match e.action with
  | .handle (.execute r) => (s.running.get? r.traceId).any (fun x => x.execution = id)
  | .handle (.stop r) => s.running.stopping r = .execution id
  | .cancel i => i = id && (s.served[id]?).any (fun x => x.front = .direct)
  | _ => false

def run (s : Service) (es : List Step) : Service := es.foldl act s

def Takes (es pre : List Step) (e : Step) : Prop := pre ++ [e] <+: es

def observed {α : Type} (f : Service → Step → Option α) : Service → List Step → List α
  | _, [] => []
  | s, e :: es => (f s e).toList ++ observed f (s.act e) es

def stream (id : Nat) (s : Service) (e : Step) : Option Polled :=
  match e.action with
  | .poll i =>
    if i = id then
      (s.served[id]?).bind (fun x =>
        if x.front.streams then some (Execution.poll id x.cancelled (s.turn x)).1 else none)
    else none
  | _ => none

def feed (id : Nat) (s : Service) (e : Step) : Option Polled :=
  match e.action with
  | .poll i => if i = id then some (s.poll id).1 else none
  | _ => none

def items (id : Nat) : Service → List Step → List (Except Error Event) :=
  observed (fun s e => (stream id s e).bind Polled.item?)

def events (id : Nat) : Service → List Step → List Event :=
  observed (fun s e => (feed id s e).bind Polled.event?)

section

variable (s : Service) (es fs : List Step) (e : Step)

@[simp] theorem run_nil : s.run [] = s := rfl

@[simp] theorem run_cons : s.run (e :: es) = (s.act e).run es := rfl

@[simp] theorem run_append : s.run (es ++ fs) = (s.run es).run fs := by
  simp [run, List.foldl_append]

@[simp] theorem observed_append {α : Type} (f : Service → Step → Option α) :
    observed f s (es ++ fs) = observed f s es ++ observed f (s.run es) fs := by
  induction es generalizing s with
  | nil => rfl
  | cons e es ih => simp [observed, ih]

theorem takes_concat {pre : List Step} {f : Step} :
    Takes (es ++ [e]) pre f ↔ Takes es pre f ∨ (pre = es ∧ f = e) := by
  unfold Takes
  rw [List.prefix_concat_iff, or_comm]
  refine or_congr_right ⟨fun h => ?_, ?_⟩
  · obtain ⟨hp, hf⟩ := List.append_inj' h rfl
    exact ⟨hp, List.singleton_inj.mp hf⟩
  · rintro ⟨rfl, rfl⟩
    rfl

theorem Takes.before {es pre : List Step} {e : Step} (h : Takes es pre e) : pre <+: es :=
  (List.prefix_append _ _).trans h

theorem items_concat (id : Nat) :
    s.items id (es ++ [e]) =
      s.items id es ++ ((stream id (s.run es) e).bind Polled.item?).toList := by
  simp [items, observed]

theorem events_cons (id : Nat) :
    s.events id (e :: es) = ((feed id s e).bind Polled.event?).toList ++ (s.act e).events id es :=
  rfl

theorem events_concat (id : Nat) :
    s.events id (es ++ [e]) =
      s.events id es ++ ((feed id (s.run es) e).bind Polled.event?).toList := by
  simp [events, observed]

end

section

variable (s : Service) (id : Nat) (x : Served) (t : Execution.Turn)

@[simp] theorem note_served (n : Notice) : (s.note n).served = s.served := rfl

@[simp] theorem note_running (n : Notice) : (s.note n).running = s.running := rfl

@[simp] theorem put_served :
    (s.put id x t).served = s.served.set id { x with execution := t.self } := rfl

@[simp] theorem put_site : (s.put id x t).site = t.site := rfl

@[simp] theorem put_running : (s.put id x t).running = s.running := rfl

@[simp] theorem turn_self : (s.turn x).self = x.execution := rfl

@[simp] theorem turn_site : (s.turn x).site = s.site := rfl

@[simp] theorem turn_put : (s.put id x t).turn { x with execution := t.self } = t := rfl

@[simp] theorem cancel_running : (s.cancel id).running = s.running := by
  unfold cancel
  split <;> rfl

theorem cancel_served (i : Nat) :
    (s.cancel i).served[id]? =
      (s.served[id]?).map (fun x => if i = id then { x with cancelled := true } else x) := by
  unfold cancel
  split
  · rename_i y hy
    simp only [List.getElem?_set]
    split
    · rename_i h
      subst h
      have hi : i < s.served.length := (List.getElem?_eq_some_iff.mp hy).1
      rw [if_pos hi, hy]
      simp
    · simp
  · rename_i hy
    cases hx : s.served[id]? with
    | none => rfl
    | some x =>
      have h : i ≠ id := by rintro rfl; simp [hy] at hx
      simp [h]

@[simp] theorem cancel_length : (s.cancel id).served.length = s.served.length := by
  unfold cancel
  split <;> simp

@[simp] theorem closeFeed_site : (s.closeFeed id x).site = s.site := by
  unfold closeFeed
  split <;> simp [Execution.close_site]

theorem closeFeed_served :
    (s.closeFeed id x).served = s.served.set id
      { x with execution := (Execution.close id (s.turn x)).self, front := x.front.shut } := by
  unfold closeFeed
  cases hf : x.front <;> simp [Front.generation?, Front.shut, hf, put]

theorem register_served (r : ExecuteRequest) :
    (s.register r).served[id]? = (s.served[id]?).map (fun x =>
      { x with cancelled :=
          x.cancelled || (s.running.get? r.traceId).any (fun x => x.execution = id) }) := by
  unfold register
  cases hp : s.running.get? r.traceId with
  | none => simp
  | some p =>
    simp only [cancel_served, note_served, Option.any_some]
    congr 1
    funext x
    by_cases h : p.execution = id <;> simp [h]

@[simp] theorem register_length (r : ExecuteRequest) :
    (s.register r).served.length = s.served.length := by
  unfold register
  cases s.running.get? r.traceId <;> simp

@[simp] theorem register_running (r : ExecuteRequest) :
    (s.register r).running = s.running.register r.traceId r.nodeId s.served.length := by
  unfold register
  cases s.running.get? r.traceId <;> simp

theorem stop_served (r : StopRequest) :
    (s.stop r).served[id]? = (s.served[id]?).map (fun x =>
      { x with cancelled := x.cancelled || s.running.stopping r = .execution id }) := by
  unfold stop
  cases hs : s.running.stopping r with
  | nothing => simp
  | elsewhere => simp
  | execution i =>
    simp only [cancel_served, note_served, Stopping.execution.injEq]
    congr 1
    funext x
    by_cases h : i = id <;> simp [h]

@[simp] theorem stop_running (r : StopRequest) : (s.stop r).running = s.running := by
  unfold stop
  split <;> simp

@[simp] theorem stop_length (r : StopRequest) :
    (s.stop r).served.length = s.served.length := by
  unfold stop
  split <;> simp

theorem cancelLaunched_served (i : Nat) :
    (s.cancelLaunched i).served[id]? = (s.served[id]?).map (fun x =>
      { x with cancelled := x.cancelled || (i = id && x.front = .direct) }) := by
  unfold cancelLaunched
  cases hy : s.served[i]? with
  | none =>
    cases hx : s.served[id]? with
    | none => rfl
    | some x =>
      have h : i ≠ id := by rintro rfl; simp [hy] at hx
      simp [h]
  | some y =>
    simp only
    split
    · rename_i hf
      rw [cancel_served]
      by_cases h : i = id
      · subst h; simp [hy, hf]
      · simp [h]
    · rename_i hf
      by_cases h : i = id
      · subst h; simp [hy, hf]
      · simp [h]

@[simp] theorem cancelLaunched_running (i : Nat) : (s.cancelLaunched i).running = s.running := by
  unfold cancelLaunched
  split
  · split <;> simp
  · rfl

@[simp] theorem cancelLaunched_length (i : Nat) :
    (s.cancelLaunched i).served.length = s.served.length := by
  unfold cancelLaunched
  split
  · split <;> simp
  · rfl

end

theorem put_entry {s : Service} {id : Nat} {y : Served} (h : s.served[id]? = some y) (x : Served)
    (t : Execution.Turn) :
    (s.put id x t).served[id]? = some { x with execution := t.self } := by
  have hi : id < s.served.length := (List.getElem?_eq_some_iff.mp h).1
  simp [hi]

theorem closeFeed_entry {s : Service} {id : Nat} {y : Served} (h : s.served[id]? = some y)
    (x : Served) :
    (s.closeFeed id x).served[id]? = some
      { x with execution := (Execution.close id (s.turn x)).self, front := x.front.shut } := by
  have hi : id < s.served.length := (List.getElem?_eq_some_iff.mp h).1
  simp [closeFeed_served, hi]

inductive Feeds (s : Service) (id : Nat) (x : Served) : Polled → Served → Service → Prop where
  | closed (hf : x.front = .closed) : Feeds s id x .ended x s
  | finished {n : UInt64} (hf : x.front = .finished n) :
    Feeds s id x .ended
      { x with execution := (Execution.close id (s.turn x)).self, front := .closed }
      (s.closeFeed id x)
  | reported {n : UInt64} (hf : x.front = .reported n) :
    Feeds s id x (.event .done) { x with front := .finished n }
      (s.put id { x with front := .finished n } (s.turn x))
  | direct {shown : Polled} {t : Execution.Turn} (hf : x.front = .direct)
    (hp : Execution.poll id x.cancelled (s.turn x) = (shown, t)) :
    Feeds s id x shown { x with execution := t.self } (s.put id x t)
  | silenced {n : UInt64} {t : Execution.Turn} (hf : x.front = .serving n)
    (hp : Execution.poll id x.cancelled (s.turn x) = (.failure .cancelled, t)) :
    Feeds s id x .ended { x with execution := (Execution.close id t).self, front := .closed }
      ((s.put id x t).closeFeed id { x with execution := t.self })
  | failed {n : UInt64} {e : Error} {t : Execution.Turn} (hf : x.front = .serving n)
    (hp : Execution.poll id x.cancelled (s.turn x) = (.failure e, t)) (he : e ≠ .cancelled) :
    Feeds s id x (.event (.error e.message))
      { x with execution := t.self, front := .reported n }
      (s.put id { x with front := .reported n } t)
  | ended {n : UInt64} {t : Execution.Turn} (hf : x.front = .serving n)
    (hp : Execution.poll id x.cancelled (s.turn x) = (.ended, t)) :
    Feeds s id x (.event .done) { x with execution := t.self, front := .finished n }
      (s.put id { x with front := .finished n } t)
  | shown {n : UInt64} {e : Event} {t : Execution.Turn} (hf : x.front = .serving n)
    (hp : Execution.poll id x.cancelled (s.turn x) = (.event e, t)) :
    Feeds s id x (.event e) { x with execution := t.self } (s.put id x t)
  | pending {n : UInt64} {t : Execution.Turn} (hf : x.front = .serving n)
    (hp : Execution.poll id x.cancelled (s.turn x) = (.pending, t)) :
    Feeds s id x .pending { x with execution := t.self } (s.put id x t)

theorem feeds_poll {s : Service} {id : Nat} {x : Served} (h : s.served[id]? = some x) :
    ∃ x', Feeds s id x (s.poll id).1 x' (s.poll id).2 := by
  obtain ⟨execution, front, cancelled⟩ := x
  simp only [poll, h]
  cases front with
  | closed => exact ⟨_, .closed rfl⟩
  | finished n => exact ⟨_, .finished rfl⟩
  | reported n => exact ⟨_, .reported rfl⟩
  | direct =>
    rcases hp : Execution.poll id cancelled (s.turn ⟨execution, .direct, cancelled⟩) with ⟨shown, t⟩
    exact ⟨_, .direct rfl hp⟩
  | serving n =>
    rcases hp : Execution.poll id cancelled (s.turn ⟨execution, .serving n, cancelled⟩) with
      ⟨shown, t⟩
    cases shown with
    | event e => exact ⟨_, .shown rfl hp⟩
    | pending => exact ⟨_, .pending rfl hp⟩
    | ended => exact ⟨_, by simpa [serve, put, turn] using Feeds.ended rfl hp⟩
    | failure e =>
      simp only [serve]
      split
      · rename_i he
        have he : e = .cancelled := by simpa [Error.isCancelled] using he
        subst he
        exact ⟨_, .silenced rfl hp⟩
      · rename_i he
        have he : e ≠ .cancelled := by simpa [Error.isCancelled] using he
        exact ⟨_, by simpa [put, turn] using Feeds.failed rfl hp he⟩

theorem Feeds.entry {s s' : Service} {id : Nat} {x x' : Served} {shown : Polled}
    (h : s.served[id]? = some x) (hp : Feeds s id x shown x' s') :
    s'.served[id]? = some x' := by
  cases hp with
  | closed => exact h
  | finished hf => rw [closeFeed_entry h, hf]; rfl
  | silenced hf =>
    rw [closeFeed_entry (put_entry h _ _), turn_put]
    simp [hf, Front.shut]
  | _ => exact put_entry h _ _

theorem Feeds.frame {s s' : Service} {i id : Nat} {x x' : Served} {shown : Polled}
    (hp : Feeds s i x shown x' s') (hi : i ≠ id) : s'.served[id]? = s.served[id]? := by
  cases hp with
  | closed => rfl
  | finished => simp [closeFeed_served, hi]
  | silenced => simp [closeFeed_served, hi]
  | _ => simp [hi]

theorem Feeds.length_eq {s s' : Service} {id : Nat} {x x' : Served} {shown : Polled}
    (hp : Feeds s id x shown x' s') : s'.served.length = s.served.length := by
  cases hp with
  | closed => rfl
  | finished => simp [closeFeed_served]
  | silenced => simp [closeFeed_served]
  | _ => simp

inductive Moves (s : Service) (e : Step) (id : Nat) (x : Served) : Served → Prop where
  | rested (h : e.action.subject? ≠ some id) :
    Moves s e id x { x with cancelled := x.cancelled || s.cancels id e }
  | polled {shown : Polled} {x' : Served} {s' : Service} (h : e.action = .poll id)
    (hp : Feeds s id x shown x' s') (hs : s.poll id = (shown, s')) : Moves s e id x x'
  | dropped (h : e.action = .drop id) (hl : x.isLive = true) :
    Moves s e id x
      { x with execution := (Execution.close id (s.turn x)).self, front := x.front.shut }
  | undropped (h : e.action = .drop id) (hl : x.isLive = false) : Moves s e id x x
  | tasked (h : e.action = .task id) :
    Moves s e id x
      { x with execution := (Execution.stepTask e.engine id x.cancelled (s.turn x)).self }
  | worked (h : e.action = .work id) :
    Moves s e id x { x with execution := (Execution.stepWork e.engine id (s.turn x)).self }

theorem polls_of_poll {s : Service} {id : Nat} {c : Bool} {x : Served} {shown : Polled}
    {t : Execution.Turn} (h : Execution.poll id c (s.turn x) = (shown, t)) :
    Execution.Polls id c (s.turn x) shown t := by
  have hp := Execution.polls_poll id c (s.turn x)
  rwa [h] at hp

theorem request_of_poll {s : Service} {id : Nat} {c : Bool} {x : Served} {shown : Polled}
    {t : Execution.Turn} (h : Execution.poll id c (s.turn x) = (shown, t)) :
    t.self.request = x.execution.request :=
  (polls_of_poll h).request_eq

/-- What a poll of the stream and a close of it keep is kept by a poll of the feed. The feed closes
a stream that it no longer shows, or that has just failed. -/
theorem Feeds.keeps {P : Execution → Site → Prop} {s s' : Service} {id : Nat} {x x' : Served}
    {shown : Polled} (hf : Feeds s id x shown x' s')
    (poll : ∀ {shown : Polled} {t : Execution.Turn},
      Execution.Polls id x.cancelled (s.turn x) shown t → P t.self t.site)
    (close : ∀ {t : Execution.Turn},
      (t.self = x.execution ∧ x.front.streams = false ∨ ∃ b, t.self.stage = .failed b) →
      P t.self t.site → P (Execution.close id t).self (Execution.close id t).site)
    (h : P x.execution s.site) : P x'.execution s'.site := by
  cases hf with
  | closed => exact h
  | reported => exact h
  | finished hf =>
    have hc := close (t := s.turn x) (.inl ⟨rfl, by rw [hf]; rfl⟩) h
    simpa only [closeFeed_site, turn_site, Execution.close_site] using hc
  | silenced _ hp =>
    have hpolls := polls_of_poll hp
    have hc := close (.inr hpolls.stage_of_failure) (poll hpolls)
    simpa only [closeFeed_site, put_site, Execution.close_site] using hc
  | direct _ hp => exact poll (polls_of_poll hp)
  | failed _ hp => exact poll (polls_of_poll hp)
  | ended _ hp => exact poll (polls_of_poll hp)
  | shown _ hp => exact poll (polls_of_poll hp)
  | pending _ hp => exact poll (polls_of_poll hp)

theorem Feeds.carried {s s' : Service} {id : Nat} {x x' : Served} {shown : Polled}
    (h : Feeds s id x shown x' s') : x.Carried x' := by
  cases h with
  | closed => exact ⟨rfl, rfl, fun h => h⟩
  | finished hf =>
    exact ⟨by simp [Execution.close_self], by simp [Served.isRegistered, hf], fun h => h⟩
  | reported hf => exact ⟨rfl, by simp [Served.isRegistered, hf], fun h => h⟩
  | direct hf hp => exact ⟨request_of_poll hp, rfl, fun h => h⟩
  | silenced hf hp =>
    have hr := request_of_poll hp
    exact ⟨by simp [Execution.close_self, hr], by simp [Served.isRegistered, hf], fun h => h⟩
  | failed hf hp => exact ⟨request_of_poll hp, by simp [Served.isRegistered, hf], fun h => h⟩
  | ended hf hp => exact ⟨request_of_poll hp, by simp [Served.isRegistered, hf], fun h => h⟩
  | shown hf hp => exact ⟨request_of_poll hp, rfl, fun h => h⟩
  | pending hf hp => exact ⟨request_of_poll hp, rfl, fun h => h⟩

theorem Moves.carried {s : Service} {e : Step} {id : Nat} {x x' : Served}
    (h : Moves s e id x x') : x.Carried x' := by
  cases h with
  | rested => exact ⟨rfl, rfl, fun hc => by simp [hc]⟩
  | polled _ hp => exact hp.carried
  | dropped =>
    refine ⟨by simp [Execution.close_self], ?_, fun h => h⟩
    obtain ⟨execution, front, cancelled⟩ := x
    cases front <;> simp [Served.isRegistered, Front.shut]
  | undropped => exact ⟨rfl, rfl, fun h => h⟩
  | tasked =>
    have ht := Execution.taskSteps_stepTask e.engine id x.cancelled (s.turn x)
    exact ⟨ht.request_eq, rfl, fun h => h⟩
  | worked =>
    have hw := Execution.workSteps_stepWork e.engine id (s.turn x)
    exact ⟨hw.request_eq, rfl, fun h => h⟩

theorem Feeds.cancelled_eq {s s' : Service} {id : Nat} {x x' : Served} {shown : Polled}
    (h : Feeds s id x shown x' s') : x'.cancelled = x.cancelled := by
  cases h <;> rfl

theorem Moves.cancelled_eq {s : Service} {e : Step} {id : Nat} {x x' : Served}
    (h : Moves s e id x x') : x'.cancelled = (x.cancelled || s.cancels id e) := by
  cases h with
  | rested => rfl
  | polled ha hp => simp [hp.cancelled_eq, cancels, ha]
  | dropped ha => simp [cancels, ha]
  | undropped ha => simp [cancels, ha]
  | tasked ha => simp [cancels, ha]
  | worked ha => simp [cancels, ha]

theorem act_own {s : Service} {e : Step} {id : Nat} {x : Served} (h : s.served[id]? = some x)
    (hs : e.action.subject? = some id) :
    ∃ x', (s.act e).served[id]? = some x' ∧ Moves s e id x x' := by
  unfold act
  cases ha : e.action with
  | poll i =>
    obtain rfl : i = id := by simpa [ha, Action.subject?] using hs
    obtain ⟨x', hp⟩ := feeds_poll h
    exact ⟨x', hp.entry h, .polled ha hp rfl⟩
  | drop i =>
    obtain rfl : i = id := by simpa [ha, Action.subject?] using hs
    cases hl : x.isLive with
    | true => exact ⟨_, by simpa [drop, h, hl] using closeFeed_entry h x, .dropped ha hl⟩
    | false => exact ⟨x, by simp [drop, h, hl], .undropped ha hl⟩
  | task i =>
    obtain rfl : i = id := by simpa [ha, Action.subject?] using hs
    exact ⟨_, by simpa only [stepTask, h] using put_entry h _ _, .tasked ha⟩
  | work i =>
    obtain rfl : i = id := by simpa [ha, Action.subject?] using hs
    exact ⟨_, by simpa only [stepWork, h] using put_entry h _ _, .worked ha⟩
  | _ => simp [ha, Action.subject?] at hs

section

variable {i id : Nat} (s : Service) (hi : i ≠ id)

include hi

theorem poll_frame : (s.poll i).2.served[id]? = s.served[id]? := by
  cases hy : s.served[i]? with
  | none => simp [poll, hy]
  | some y =>
    obtain ⟨y', hp⟩ := feeds_poll hy
    exact hp.frame hi

theorem drop_frame : (s.drop i).served[id]? = s.served[id]? := by
  cases hy : s.served[i]? with
  | none => simp [drop, hy]
  | some y =>
    simp only [drop, hy]
    split <;> simp [closeFeed_served, hi]

theorem stepTask_frame (g : Engine) : (s.stepTask g i).served[id]? = s.served[id]? := by
  cases hy : s.served[i]? with
  | none => simp [stepTask, hy]
  | some y => simp [stepTask, hy, hi]

theorem stepWork_frame (g : Engine) : (s.stepWork g i).served[id]? = s.served[id]? := by
  cases hy : s.served[i]? with
  | none => simp [stepWork, hy]
  | some y => simp [stepWork, hy, hi]

end

theorem act_absent {s : Service} {e : Step} {id : Nat} (h : s.served[id]? = none)
    (hs : e.action.subject? = some id) : s.act e = s := by
  unfold act
  cases ha : e.action with
  | poll i =>
    obtain rfl : i = id := by simpa [ha, Action.subject?] using hs
    simp only [poll, h]
  | drop i =>
    obtain rfl : i = id := by simpa [ha, Action.subject?] using hs
    simp only [drop, h]
  | task i =>
    obtain rfl : i = id := by simpa [ha, Action.subject?] using hs
    simp only [stepTask, h]
  | work i =>
    obtain rfl : i = id := by simpa [ha, Action.subject?] using hs
    simp only [stepWork, h]
  | _ => simp [ha, Action.subject?] at hs

theorem act_other {s : Service} {e : Step} {id : Nat} {x : Served} (h : s.served[id]? = some x)
    (hs : e.action.subject? ≠ some id) :
    (s.act e).served[id]? = some { x with cancelled := x.cancelled || s.cancels id e } := by
  have hi : id < s.served.length := (List.getElem?_eq_some_iff.mp h).1
  unfold act cancels
  cases ha : e.action with
  | handle c =>
    cases c with
    | isAlive => simpa [handle] using h
    | execute r =>
      have hn : id < ((s.note .eventReceived).register r).served.length := by simpa using hi
      simp only [handle, execute, add]
      rw [List.getElem?_append_left hn, register_served, note_served, h]
      simp
    | stop r => simp only [handle, stop_served, note_served, h]; rfl
  | launch r b =>
    simp only [launch, add]
    rw [List.getElem?_append_left hi, h]
    simp
  | cancel i => simp [cancelLaunched_served, h]
  | wait now => simpa [waitUntil] using h
  | poll i =>
    have hi : i ≠ id := by simpa [ha, Action.subject?] using hs
    simpa [poll_frame s hi] using h
  | drop i =>
    have hi : i ≠ id := by simpa [ha, Action.subject?] using hs
    simpa [drop_frame s hi] using h
  | task i =>
    have hi : i ≠ id := by simpa [ha, Action.subject?] using hs
    simpa [stepTask_frame s hi] using h
  | work i =>
    have hi : i ≠ id := by simpa [ha, Action.subject?] using hs
    simpa [stepWork_frame s hi] using h

theorem moves_act {s : Service} {e : Step} {id : Nat} {x : Served} (h : s.served[id]? = some x) :
    ∃ x', (s.act e).served[id]? = some x' ∧ Moves s e id x x' := by
  by_cases hs : e.action.subject? = some id
  · exact act_own h hs
  · exact ⟨_, act_other h hs, .rested hs⟩

section

variable (s : Service) (id : Nat)

theorem poll_length : (s.poll id).2.served.length = s.served.length := by
  cases hx : s.served[id]? with
  | none => simp [poll, hx]
  | some x =>
    obtain ⟨x', hp⟩ := feeds_poll hx
    exact hp.length_eq

theorem drop_length : (s.drop id).served.length = s.served.length := by
  cases hx : s.served[id]? with
  | none => simp [drop, hx]
  | some x =>
    simp only [drop, hx]
    split <;> simp [closeFeed_served]

theorem stepTask_length (g : Engine) : (s.stepTask g id).served.length = s.served.length := by
  cases hx : s.served[id]? with
  | none => simp [stepTask, hx]
  | some x => simp [stepTask, hx]

theorem stepWork_length (g : Engine) : (s.stepWork g id).served.length = s.served.length := by
  cases hx : s.served[id]? with
  | none => simp [stepWork, hx]
  | some x => simp [stepWork, hx]

end

def arrival (s : Service) (e : Step) : List Served :=
  match e.action with
  | .handle (.execute r) => [⟨.ofRequest r, .serving s.running.next, false⟩]
  | .launch r b => [⟨.ofRequest r, .direct, b⟩]
  | _ => []

theorem act_served (s : Service) (e : Step) :
    ∃ xs, (s.act e).served = xs ++ s.arrival e ∧ xs.length = s.served.length := by
  unfold act arrival
  cases e.action with
  | handle c =>
    cases c with
    | isAlive => exact ⟨s.served, by simp [handle]⟩
    | execute r =>
      exact ⟨((s.note .eventReceived).register r).served, by simp [handle, execute, add]⟩
    | stop r => exact ⟨_, (List.append_nil _).symm, stop_length _ r⟩
  | launch r b => exact ⟨s.served, rfl, rfl⟩
  | cancel id => exact ⟨_, (List.append_nil _).symm, cancelLaunched_length s id⟩
  | poll id => exact ⟨_, (List.append_nil _).symm, poll_length s id⟩
  | drop id => exact ⟨_, (List.append_nil _).symm, drop_length s id⟩
  | task id => exact ⟨_, (List.append_nil _).symm, stepTask_length s id _⟩
  | work id => exact ⟨_, (List.append_nil _).symm, stepWork_length s id _⟩
  | wait now => exact ⟨s.served, (List.append_nil _).symm, rfl⟩

theorem act_length (s : Service) (e : Step) :
    (s.act e).served.length = s.served.length + (s.arrival e).length := by
  obtain ⟨xs, h, hl⟩ := s.act_served e
  rw [h, List.length_append, hl]

theorem act_arrival {s : Service} {e : Step} {id : Nat} (h : s.served.length ≤ id) :
    (s.act e).served[id]? = (s.arrival e)[id - s.served.length]? := by
  obtain ⟨xs, hx, hl⟩ := s.act_served e
  rw [hx, List.getElem?_append_right (hl ▸ h), hl]

theorem arrival_entry {s : Service} {e : Step} {i : Nat} {x : Served}
    (h : (s.arrival e)[i]? = some x) : i = 0 ∧ s.arrival e = [x] := by
  unfold arrival at h ⊢
  split at h <;> cases i <;> simp_all

theorem of_arrival {s : Service} {e : Step} {x : Served} (h : s.arrival e = [x]) :
    e.action.subject? = none ∧ x.front.streams = true ∧ ∃ r, x.execution = .ofRequest r := by
  unfold arrival at h
  split at h
  · rename_i r ha
    cases h
    exact ⟨by simp [ha, Action.subject?], rfl, r, rfl⟩
  · rename_i r b ha
    cases h
    exact ⟨by simp [ha, Action.subject?], rfl, r, rfl⟩
  · simp at h

theorem served_act {s : Service} {e : Step} {id : Nat} {x' : Served}
    (h : (s.act e).served[id]? = some x') :
    (∃ x, s.served[id]? = some x ∧ Moves s e id x x') ∨
      (id = s.served.length ∧ s.arrival e = [x']) := by
  by_cases hi : id < s.served.length
  · obtain ⟨x'', hx, hm⟩ := moves_act (e := e) (List.getElem?_eq_getElem hi)
    obtain rfl : x'' = x' := Option.some.inj (hx.symm.trans h)
    exact .inl ⟨_, List.getElem?_eq_getElem hi, hm⟩
  · obtain ⟨h0, ha⟩ := arrival_entry (act_arrival (Nat.le_of_not_lt hi) ▸ h)
    exact .inr ⟨by omega, ha⟩

theorem length_le_run (s : Service) (es : List Step) :
    s.served.length ≤ (s.run es).served.length := by
  induction es generalizing s with
  | nil => exact Nat.le_refl _
  | cons e es ih =>
    have h := ih (s.act e)
    rw [act_length] at h
    simp only [run_cons]
    omega

theorem length_run_mono (s : Service) {pre es : List Step} (h : pre <+: es) :
    (s.run pre).served.length ≤ (s.run es).served.length := by
  obtain ⟨post, rfl⟩ := h
  rw [run_append]
  exact length_le_run _ post

theorem stream_absent {s : Service} {e : Step} {id : Nat} (h : s.served[id]? = none) :
    stream id s e = none := by
  unfold stream
  split
  · split <;> simp [h]
  · rfl

theorem feed_absent {s : Service} {e : Step} {id : Nat} (h : s.served[id]? = none) :
    (feed id s e).bind Polled.event? = none := by
  unfold feed
  split
  · split
    · rename_i i _ hi
      subst hi
      simp [poll, h, Polled.event?]
    · rfl
  · rfl

theorem observed_absent {α : Type} {f : Service → Step → Option α} {id : Nat}
    (hf : ∀ {s : Service} {e : Step}, s.served[id]? = none → f s e = none) {s : Service}
    {es : List Step} (h : (s.run es).served.length ≤ id) : observed f s es = [] := by
  induction es generalizing s with
  | nil => rfl
  | cons e es ih =>
    have hs : s.served.length ≤ id := Nat.le_trans (length_le_run s (e :: es)) h
    have he : f s e = none := hf (List.getElem?_eq_none hs)
    simp [observed, he, ih h]

theorem items_absent {s : Service} {es : List Step} {id : Nat}
    (h : (s.run es).served.length ≤ id) : s.items id es = [] :=
  observed_absent (fun hs => by rw [stream_absent hs]; rfl) h

theorem events_absent {s : Service} {es : List Step} {id : Nat}
    (h : (s.run es).served.length ≤ id) : s.events id es = [] :=
  observed_absent feed_absent h

theorem stream_polled {s : Service} {e : Step} {id : Nat} {x : Served} {shown : Polled}
    {t : Execution.Turn} (ha : e.action = .poll id) (hx : s.served[id]? = some x)
    (hf : x.front.streams = true) (hp : Execution.poll id x.cancelled (s.turn x) = (shown, t)) :
    stream id s e = some shown := by
  simp [stream, ha, hx, hf, hp]

theorem of_stream {s : Service} {e : Step} {id : Nat} {x : Served} {shown : Polled}
    (hx : s.served[id]? = some x) (h : stream id s e = some shown) :
    e.action = .poll id ∧ x.front.streams = true ∧
      (Execution.poll id x.cancelled (s.turn x)).1 = shown := by
  unfold stream at h
  split at h
  · rename_i i ha
    split at h
    · rename_i hi
      subst hi
      simp only [hx, Option.bind_some] at h
      split at h
      · rename_i hf
        exact ⟨ha, hf, Option.some.inj h⟩
      · simp at h
    · simp at h
  · simp at h

theorem stream_other {s : Service} {e : Step} {id : Nat} (h : e.action ≠ .poll id) :
    stream id s e = none := by
  unfold stream
  split
  · rename_i i ha
    split
    · rename_i hi
      exact absurd (hi ▸ ha) h
    · rfl
  · rfl

theorem stream_silent {s : Service} {e : Step} {id : Nat} {x : Served}
    (hx : s.served[id]? = some x) (hf : x.front.streams = false) : stream id s e = none := by
  unfold stream
  split
  · split <;> simp [hx, hf]
  · rfl

theorem feed_polled {s : Service} {e : Step} {id : Nat} (ha : e.action = .poll id) :
    feed id s e = some (s.poll id).1 := by
  simp [feed, ha]

theorem feed_other {s : Service} {e : Step} {id : Nat} (ha : e.action ≠ .poll id) :
    feed id s e = none := by
  unfold feed
  split
  · rename_i i hi
    split
    · rename_i hid
      exact absurd (hid ▸ hi) ha
    · rfl
  · rfl

theorem items_arrival (s : Service) (es : List Step) (e : Step) :
    s.items (s.run es).served.length (es ++ [e]) = [] := by
  have hs : stream (s.run es).served.length (s.run es) e = none :=
    stream_absent (List.getElem?_eq_none (Nat.le_refl _))
  rw [items_concat, items_absent (Nat.le_refl _), hs]
  rfl

theorem events_arrival (s : Service) (es : List Step) (e : Step) :
    s.events (s.run es).served.length (es ++ [e]) = [] := by
  have hs : (feed (s.run es).served.length (s.run es) e).bind Polled.event? = none :=
    feed_absent (List.getElem?_eq_none (Nat.le_refl _))
  rw [events_concat, events_absent (Nat.le_refl _), hs]
  rfl

theorem run_induction {g : Engine} {models : List LanguageModel}
    {motive : List Step → Nat → Served → Prop}
    (arrives : ∀ {es : List Step} {e : Step} {x : Served},
      ((start g models).run es).arrival e = [x] →
      motive (es ++ [e]) ((start g models).run es).served.length x)
    (moves : ∀ {es : List Step} {e : Step} {id : Nat} {x x' : Served},
      ((start g models).run es).served[id]? = some x →
      Moves ((start g models).run es) e id x x' → motive es id x → motive (es ++ [e]) id x')
    {es : List Step} {id : Nat} {x : Served}
    (h : ((start g models).run es).served[id]? = some x) : motive es id x := by
  induction es using List.reverseRecOn generalizing id x with
  | nil => simp [start] at h
  | append_singleton es e ih =>
    rw [run_append, run_cons, run_nil] at h
    rcases served_act h with ⟨y, hy, hm⟩ | ⟨rfl, ha⟩
    · exact moves hy hm (ih hy)
    · exact arrives ha

theorem run_keeps {P : List Step → Served → Prop} {s : Service} {id : Nat} {x : Served}
    (hx : s.served[id]? = some x) (h : P [] x)
    (keeps : ∀ {es : List Step} {e : Step} {y y' : Served}, (s.run es).served[id]? = some y →
      Moves (s.run es) e id y y' → P es y → P (es ++ [e]) y')
    (es : List Step) : ∃ y, (s.run es).served[id]? = some y ∧ P es y := by
  induction es using List.reverseRecOn with
  | nil => exact ⟨x, hx, h⟩
  | append_singleton es e ih =>
    obtain ⟨y, hy, h⟩ := ih
    obtain ⟨y', hy', hm⟩ := moves_act (e := e) hy
    exact ⟨y', by simpa using hy', keeps hy hm h⟩

end Service

def Engine.bare : Engine :=
  ⟨.standard, ⟨fun _ => .error (.configuration .modelMissing), ∅, ∅, none⟩, .noop, .log⟩

def ExecuteRequest.ofTerminal (trace node : String) : ExecuteRequest :=
  ⟨trace, { Workflow.new "w" .unset with nodes := [⟨"end", .terminal ⟨.unset⟩⟩] }, node, ∅⟩

def Action.toEnd (id : Nat) : List Action :=
  [.poll id, .poll id, .poll id] ++ List.replicate 4 (.task id) ++ [.work id] ++
    List.replicate 4 (.task id)

def Action.whole : List Action :=
  .launch (.ofTerminal "t" "end") false :: (Action.toEnd 0 ++ [.poll 0])

end NodeRun
