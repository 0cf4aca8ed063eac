import NodeRun.Proofs.Cancellation
import NodeRun.Proofs.Gating
import NodeRun.Proofs.Permits

namespace NodeRun

namespace Stage

def ahead : Stage → Nat
  | idle => 6
  | waiting => 5
  | announced => 4
  | started => 3
  | awaiting => 2
  | failed _ => 1
  | succeeded => 1
  | closed => 0

end Stage

namespace Task

def ahead : Task → Nat
  | absent => 9
  | opening => 8
  | compiling _ => 7
  | parsing _ _ => 6
  | launching _ _ _ => 5
  | invoking _ => 4
  | reporting _ _ => 3
  | flushing _ _ => 2
  | settling _ => 1
  | ended _ => 0

end Task

namespace Work

def ahead : Work → Nat
  | ready _ _ _ => 2
  | calling _ _ _ => 1
  | _ => 0

end Work

namespace Front

def ahead : Front → Nat
  | direct => 3
  | serving _ => 3
  | reported _ => 2
  | finished _ => 1
  | closed => 0

end Front

namespace Execution

/-- The steps that are ahead of a task and its work. A task that launches its work has one step
less before it, and the work two more. -/
def labour (x : Execution) : Nat := 3 * x.task.ahead + x.work.ahead

/-- A bound of the steps that are ahead of an execution. A new stage can bring a new task. -/
def ahead (x : Execution) : Nat := 100 * x.stage.ahead + x.labour

def Manned (x : Execution) : Prop :=
  ∀ guard, x.task = .invoking guard → x.work ≠ .absent ∧ x.work ≠ .aborted

section

variable {g : Engine} {id : Nat} {c : Bool} {t t' : Turn} {shown : Polled}

theorem Manned.poll (h : Manned t.self) (hp : Polls id c t shown t') : Manned t'.self := by
  cases hp with
  | spawned => exact fun guard hk => by cases hk
  | exhausted =>
    rw [close_self]
    exact h
  | _ => exact h

theorem Manned.task (h : Manned t.self) (hs : TaskSteps g id c t t') : Manned t'.self := by
  intro guard hk
  cases hs with
  | launched => exact ⟨by rintro ⟨⟩, by rintro ⟨⟩⟩
  | absent => exact h guard hk
  | ended => exact h guard hk
  | unreplied => exact h guard hk
  | _ => cases hk

theorem Manned.work (h : Manned t.self) (hs : WorkSteps g id t t') : Manned t'.self := by
  intro guard hk
  cases hs with
  | waiting => exact h guard hk
  | idle => exact h guard hk
  | _ => exact ⟨by rintro ⟨⟩, by rintro ⟨⟩⟩

theorem ahead_close (id : Nat) (t : Turn) : (close id t).self.ahead ≤ t.self.ahead := by
  rw [close_self]
  simp only [ahead, labour, Stage.ahead]
  omega

theorem Polls.ahead_le (hp : Polls id c t shown t') (h : t.self.Handed) :
    t'.self.ahead ≤ t.self.ahead := by
  cases hp with
  | spawned hs =>
    have hk := h.unspawned (.inr (.inr (by rw [hs]; rfl)))
    simp [ahead, labour, hs, hk, Stage.ahead, Task.ahead]
    omega
  | exhausted => exact ahead_close id t
  | waited => exact Nat.le_refl _
  | unsettled => exact Nat.le_refl _
  | closed => exact Nat.le_refl _
  | _ => simp [ahead, labour, *, Stage.ahead]

theorem Polls.ahead_lt (hp : Polls id c t shown t') (h : t.self.Handed) (hend : shown ≠ .ended)
    (hw : t.self.stage ≠ .waiting)
    (hk : t.self.stage = .awaiting → ∃ reply, t.self.task = .ended reply) :
    t'.self.ahead < t.self.ahead := by
  cases hp with
  | spawned hs =>
    have hk := h.unspawned (.inr (.inr (by rw [hs]; rfl)))
    simp [ahead, labour, hs, hk, Stage.ahead, Task.ahead]
    omega
  | unsettled hs hk' =>
    obtain ⟨reply, hr⟩ := hk hs
    exact absurd hr (hk' reply)
  | exhausted => exact absurd rfl hend
  | closed => exact absurd rfl hend
  | waited hs => exact absurd hs hw
  | left hs => exact absurd hs hw
  | granted hs => exact absurd hs hw
  | _ => simp [ahead, labour, *, Stage.ahead]

theorem TaskSteps.ahead_lt (hs : TaskSteps g id c t t') (ha : t.self.task ≠ .absent)
    (he : ∀ reply, t.self.task ≠ .ended reply)
    (hw : ∀ guard, t.self.task = .invoking guard → ∃ reply, t.self.work = .ended reply) :
    t'.self.ahead < t.self.ahead := by
  cases hs with
  | absent hk => exact absurd hk ha
  | ended hk => exact absurd hk (he _)
  | unreplied hk _ hn =>
    obtain ⟨reply, hr⟩ := hw _ hk
    exact absurd hr (hn reply)
  | aborted hk =>
    obtain ⟨reply, hr⟩ := hw _ hk
    simp [ahead, labour, hk, hr, Task.ahead, Work.ahead]
  | launched hk =>
    simp [ahead, labour, hk, Task.ahead, Work.ahead]
    omega
  | _ => simp [ahead, labour, *, Task.ahead]

theorem WorkSteps.ahead_lt (hs : WorkSteps g id t t') (hi : ∀ reply, t.self.work ≠ .ended reply)
    (hw : t.self.work ≠ .absent ∧ t.self.work ≠ .aborted)
    (hn : ∀ guard call wake, t.self.work = .calling guard call wake → wake ≤ t.site.now) :
    t'.self.ahead < t.self.ahead := by
  cases hs with
  | finished hk => simp [ahead, labour, hk, Work.ahead]
  | called hk => simp [ahead, labour, hk, Work.ahead]
  | returned hk => simp [ahead, labour, hk, Work.ahead]
  | waiting hk hlt => exact absurd (hn _ _ _ hk) (by omega)
  | idle hk =>
    rcases hk with hk | hk | ⟨reply, hk⟩
    · exact absurd hk hw.1
    · exact absurd hk hw.2
    · exact absurd hk (hi reply)

end

end Execution

def Served.ahead (x : Served) : Nat := 1000 * x.front.ahead + x.execution.ahead

def Action.Carries (id : Nat) : Action → Prop
  | poll i => i = id
  | task i => i = id
  | work i => i = id
  | wait _ => True
  | _ => False

namespace Service

open Execution

section

variable {s s' : Service} {id : Nat} {x x' : Served} {shown : Polled}

theorem Feeds.ahead_lt (hf : Feeds s id x shown x' s') (hr : x.isRegistered = true)
    (hh : x.execution.Handed) (hopen : x.front ≠ .closed) (hw : x.execution.stage ≠ .waiting)
    (hk : x.execution.stage = .awaiting → ∃ reply, x.execution.task = .ended reply) :
    x'.ahead < x.ahead := by
  have hle {shown t} (hp : Execution.poll id x.cancelled (s.turn x) = (shown, t)) :
      t.self.ahead ≤ x.execution.ahead := (polls_of_poll hp).ahead_le hh
  have hlt {shown t} (hp : Execution.poll id x.cancelled (s.turn x) = (shown, t))
      (hshown : shown ≠ .ended) : t.self.ahead < x.execution.ahead :=
    (polls_of_poll hp).ahead_lt hh hshown hw hk
  -- Where the front changes, it comes closer to the end; where it stays, the execution does.
  cases hf with
  | closed hf => exact absurd hf hopen
  | direct hf => simp [Served.isRegistered, hf] at hr
  | finished hf =>
    have hc := ahead_close id (s.turn x)
    simp only [Served.ahead, hf, Front.ahead]
    simp only [turn_self] at hc
    omega
  | reported hf =>
    simp only [Served.ahead, hf, Front.ahead]
    omega
  | @silenced _ t hf hp =>
    have hc := ahead_close id t
    have hl := hle hp
    simp only [Served.ahead, hf, Front.ahead]
    omega
  | failed hf hp =>
    have hl := hle hp
    simp only [Served.ahead, hf, Front.ahead]
    omega
  | ended hf hp =>
    have hl := hle hp
    simp only [Served.ahead, hf, Front.ahead]
    omega
  | shown hf hp =>
    have hl := hlt hp (by simp)
    simp only [Served.ahead]
    omega
  | pending hf hp =>
    have hl := hlt hp (by simp)
    simp only [Served.ahead]
    omega

end

section

variable {g : Engine} {models : List LanguageModel} {es : List Step} {id : Nat} {x : Served}

theorem manned_run (hx : ((start g models).run es).served[id]? = some x) :
    Manned x.execution := by
  refine run_induction (motive := fun _ _ x => Manned x.execution) ?_ ?_ hx
  · intro es e x ha
    obtain ⟨-, -, r, hr⟩ := of_arrival ha
    rw [hr]
    exact fun guard hk => by cases hk
  · intro es e id x x' _ hm ih
    refine hm.keeps (P := fun _ y => Manned y) (fun _ h => h) (fun hp h => h.poll hp) ?_
      (fun hs h => h.task hs) (fun hs h => h.work hs) ih
    intro _ t h
    rw [close_self]
    exact h

theorem admitted_of_items (hx : ((start g models).run es).served[id]? = some x)
    (hi : (start g models).items id es ≠ []) : x.execution.stage ≠ .waiting := by
  intro hs
  have hsaid := (told_run hx).said
  rw [hs] at hsaid
  generalize (start g models).items id es = items at hi hsaid
  cases hsaid
  exact hi rfl

theorem closer_by_poll (hx : ((start g models).run es).served[id]? = some x)
    (hr : x.isRegistered = true) (hopen : x.front ≠ .closed)
    (hw : x.execution.stage ≠ .waiting)
    (hk : x.execution.stage = .awaiting → ∃ reply, x.execution.task = .ended reply) :
    ∃ x', ((start g models).run (es ++ g.steps [.poll id])).served[id]? = some x' ∧
      x'.ahead < x.ahead := by
  obtain ⟨x', hp⟩ := feeds_poll hx
  exact ⟨x', by simpa [Engine.steps, act] using hp.entry hx,
    hp.ahead_lt hr (handed_run hx) hopen hw hk⟩

theorem closer_by_task (hx : ((start g models).run es).served[id]? = some x)
    (ha : x.execution.task ≠ .absent) (he : ∀ reply, x.execution.task ≠ .ended reply)
    (hw : ∀ guard, x.execution.task = .invoking guard →
      ∃ reply, x.execution.work = .ended reply) :
    ∃ x', ((start g models).run (es ++ g.steps [.task id])).served[id]? = some x' ∧
      x'.ahead < x.ahead := by
  have hs := taskSteps_stepTask g id x.cancelled (((start g models).run es).turn x)
  have hlt := hs.ahead_lt ha he hw
  refine ⟨_, by simpa [Engine.steps, act, stepTask, hx] using put_entry hx x _, ?_⟩
  simp only [Served.ahead]
  simp only [turn_self] at hlt
  omega

theorem closer_by_work (hx : ((start g models).run es).served[id]? = some x)
    (hi : ∀ reply, x.execution.work ≠ .ended reply)
    (hw : x.execution.work ≠ .absent ∧ x.execution.work ≠ .aborted) :
    ∃ now x', ((start g models).run (es ++ g.steps [.wait now, .work id])).served[id]? = some x' ∧
      x'.ahead < x.ahead := by
  let now := x.execution.wake?.getD 0
  let s := ((start g models).run es).waitUntil now
  have hxs : s.served[id]? = some x := hx
  have hn : ∀ guard call wake, x.execution.work = .calling guard call wake →
      wake ≤ (s.turn x).site.now := by
    intro guard call wake hk
    have hnow : now = wake := by simp [now, Execution.wake?, hk]
    simp only [turn_site, s, waitUntil, hnow]
    exact Nat.le_max_right _ _
  have hlt := (workSteps_stepWork g id (s.turn x)).ahead_lt hi hw hn
  refine ⟨now, _, by simpa [Engine.steps, act, stepWork, hxs, s] using put_entry hxs x _, ?_⟩
  simp only [Served.ahead]
  simp only [turn_self, s] at hlt
  omega

theorem closer_run (hx : ((start g models).run es).served[id]? = some x)
    (hr : x.isRegistered = true) (hopen : x.front ≠ .closed)
    (hw : x.execution.stage ≠ .waiting) :
    ∃ as x', (∀ a ∈ as, Action.Carries id a) ∧
      ((start g models).run (es ++ g.steps as)).served[id]? = some x' ∧ x'.ahead < x.ahead := by
  -- The stream goes on by itself unless it awaits its task, and the task unless it awaits the work.
  by_cases hpoll : x.execution.stage = .awaiting → ∃ reply, x.execution.task = .ended reply
  · obtain ⟨x', hx', hlt⟩ := closer_by_poll hx hr hopen hw hpoll
    exact ⟨[.poll id], x', by simp [Action.Carries], hx', hlt⟩
  · obtain ⟨hs, hk⟩ := Classical.not_imp.mp hpoll
    have he : ∀ reply, x.execution.task ≠ .ended reply := fun reply hr => hk ⟨reply, hr⟩
    by_cases htask : ∀ guard, x.execution.task = .invoking guard →
        ∃ reply, x.execution.work = .ended reply
    · obtain ⟨x', hx', hlt⟩ := closer_by_task hx ((handed_run hx).spawned hs) he htask
      exact ⟨[.task id], x', by simp [Action.Carries], hx', hlt⟩
    · obtain ⟨guard, hwait⟩ := not_forall.mp htask
      obtain ⟨hinv, hwork⟩ := Classical.not_imp.mp hwait
      obtain ⟨now, x', hx', hlt⟩ := closer_by_work hx (fun reply hr => hwork ⟨reply, hr⟩)
        (manned_run hx guard hinv)
      exact ⟨[.wait now, .work id], x', by simp [Action.Carries], hx', hlt⟩

theorem finishes_run (hx : ((start g models).run es).served[id]? = some x)
    (hr : x.isRegistered = true) (hi : (start g models).items id es ≠ []) :
    ∃ as, (∀ a ∈ as, Action.Carries id a) ∧
      feed id ((start g models).run (es ++ g.steps as)) ⟨g, .poll id⟩ = some .ended := by
  -- By induction on what is ahead of the stream, since an open one can always be brought closer.
  induction hn : x.ahead using Nat.strongRecOn generalizing es x with
  | ind n ih =>
    by_cases hopen : x.front = .closed
    · exact ⟨[], by simp, by simp [feed, poll, Engine.steps, hx, hopen]⟩
    · obtain ⟨as, x', has, hx', hlt⟩ := closer_run hx hr hopen (admitted_of_items hx hi)
      obtain ⟨y, hy, hc⟩ := carried_run hx (g.steps as)
      rw [← run_append] at hy
      obtain rfl := Option.some.inj (hx'.symm.trans hy)
      have hi' : (start g models).items id (es ++ g.steps as) ≠ [] := by
        rw [items, observed_append]
        exact List.append_ne_nil_of_left_ne_nil hi _
      obtain ⟨as', has', hend⟩ := ih x'.ahead (hn ▸ hlt) hx' (hc.registered.trans hr) hi' rfl
      refine ⟨as ++ as', ?_, ?_⟩
      · simpa [or_imp, forall_and] using ⟨has, has'⟩
      · simpa [Engine.steps] using hend

end

end Service

end NodeRun
