import NodeRun.Proofs.Gating

namespace NodeRun

namespace Gate

variable {g gate : Gate} {id : Nat}

/-- Those who wait, be it that a permit was handed to them already. -/
def line (g : Gate) : List Nat := g.granted ++ g.queue

def stock (g : Gate) : Nat := g.free + g.granted.length

theorem line_of_take? (h : g.take? = some gate) : gate.line = g.line := by
  unfold take? at h
  split at h
  · cases h
  · cases h
    rfl

theorem stock_of_take? (h : g.take? = some gate) : gate.stock + 1 = g.stock := by
  unfold take? at h
  split at h
  · cases h
  · rename_i n hn
    cases h
    simp only [stock, hn]
    omega

@[simp] theorem line_enqueue (g : Gate) (id : Nat) : (g.enqueue id).line = g.line ++ [id] :=
  (List.append_assoc _ _ _).symm

@[simp] theorem stock_enqueue (g : Gate) (id : Nat) : (g.enqueue id).stock = g.stock := rfl

@[simp] theorem line_release (g : Gate) : g.release.line = g.line := by
  unfold release
  split
  · rfl
  · rename_i id rest hq
    simp [line, hq]

@[simp] theorem stock_release (g : Gate) : g.release.stock = g.stock + 1 := by
  unfold release
  split
  · simp only [stock]
    omega
  · simp [stock, Nat.add_assoc]

theorem isGranted_iff : g.isGranted id = true ↔ id ∈ g.granted := by
  simp [isGranted]

theorem line_claim (h : id ∈ g.granted) : (g.claim id).line = g.line.erase id :=
  (List.erase_append_left g.queue h).symm

theorem stock_claim (h : id ∈ g.granted) : (g.claim id).stock + 1 = g.stock := by
  have hl := List.length_erase_of_mem h
  have hpos : 0 < g.granted.length := List.length_pos_of_mem h
  simp only [claim, stock, hl]
  omega

@[simp] theorem line_leave (g : Gate) (id : Nat) : (g.leave id).line = g.line.erase id := by
  unfold leave
  split
  · rename_i h
    rw [line_release, line_claim (isGranted_iff.mp h)]
  · rename_i h
    have hn : id ∉ g.granted := fun hm => h (isGranted_iff.mpr hm)
    exact (List.erase_append_right g.queue hn).symm

@[simp] theorem stock_leave (g : Gate) (id : Nat) : (g.leave id).stock = g.stock := by
  unfold leave
  split
  · rename_i h
    rw [stock_release, stock_claim (isGranted_iff.mp h)]
  · rfl

end Gate

namespace Stage

def holds : Stage → Bool
  | announced => true
  | started => true
  | failed holding => holding
  | _ => false

@[simp] theorem holds_closed : closed.holds = false := rfl

end Stage

namespace Task

def runs : Task → Bool
  | absent => false
  | ended _ => false
  | _ => true

theorem runs_of {k : Task} (ha : k ≠ .absent) (he : ∀ reply, k ≠ .ended reply) :
    k.runs = true := by
  cases k with
  | absent => exact absurd rfl ha
  | ended reply => exact absurd rfl (he reply)
  | _ => rfl

@[simp] theorem runs_ended (reply : Reply Prediction) : (ended reply).runs = false := rfl

end Task

namespace Execution

def holds (x : Execution) : Bool := x.stage.holds || x.task.runs

/-- There is a task when the stream awaits it, and none as long as the permit is with the stream. -/
structure Handed (x : Execution) : Prop where
  unspawned : x.stage = .idle ∨ x.stage = .waiting ∨ x.stage.holds = true → x.task = .absent
  spawned : x.stage = .awaiting → x.task ≠ .absent

structure Orderly (id : Nat) (t : Turn) : Prop where
  nodup : t.gate.line.Nodup
  mem : id ∈ t.gate.line ↔ t.self.stage = .waiting
  handed : t.self.Handed

/-- A permit that the gate loses is held by the execution afterwards, and one that the execution
loses is back at the gate. -/
structure Balances (id : Nat) (t t' : Turn) : Prop where
  orderly : Orderly id t'
  others : ∀ j, j ≠ id → (j ∈ t'.gate.line ↔ j ∈ t.gate.line)
  stock : t'.gate.stock + t'.self.holds.toNat = t.gate.stock + t.self.holds.toNat

section

variable {g : Engine} {id : Nat} {c : Bool} {t t' t'' : Turn} {shown : Polled}

theorem Balances.refl (h : Orderly id t) : Balances id t t := ⟨h, fun _ _ => Iff.rfl, rfl⟩

theorem Balances.trans (h : Balances id t t') (h' : Balances id t' t'') : Balances id t t'' :=
  ⟨h'.orderly, fun j hj => (h'.others j hj).trans (h.others j hj), h'.stock.trans h.stock⟩

theorem Orderly.unlined (h : Orderly id t) (hs : t.self.stage ≠ .waiting) : id ∉ t.gate.line :=
  fun hm => hs (h.mem.mp hm)

theorem Orderly.apart (h : Orderly id t) (hl : t'.gate.line = t.gate.line)
    (hs : t.self.stage ≠ .waiting) (hs' : t'.self.stage ≠ .waiting) (hh : t'.self.Handed)
    (hstock : t'.gate.stock + t'.self.holds.toNat = t.gate.stock + t.self.holds.toNat) :
    Balances id t t' := by
  refine ⟨⟨hl ▸ h.nodup, ?_, hh⟩, fun j _ => by rw [hl], hstock⟩
  rw [hl]
  exact iff_of_false (h.unlined hs) hs'

theorem Orderly.leaves (h : Orderly id t) (hl : t'.gate.line = t.gate.line.erase id)
    (hs' : t'.self.stage ≠ .waiting) (hh : t'.self.Handed)
    (hstock : t'.gate.stock + t'.self.holds.toNat = t.gate.stock + t.self.holds.toNat) :
    Balances id t t' := by
  refine ⟨⟨hl ▸ h.nodup.erase id, ?_, hh⟩, fun j hj => ?_, hstock⟩
  · rw [hl, h.nodup.mem_erase_iff]
    exact iff_of_false (fun hm => hm.1 rfl) hs'
  · rw [hl, h.nodup.mem_erase_iff]
    exact and_iff_right hj

theorem Handed.of_over {x : Execution} (h : x.stage = .closed ∨ x.stage = .succeeded ∨
    x.stage = .failed false) : x.Handed := by
  rcases h with h | h | h <;> exact ⟨by simp [h, Stage.holds], by simp [h]⟩

theorem Orderly.close (h : Orderly id t) : Balances id t (close id t) := by
  have hh := h.handed
  have handed (t' : Turn) : (t'.toStage .closed).self.Handed := .of_over (.inl rfl)
  unfold Execution.close
  split
  · rename_i hs
    exact h.leaves (Gate.line_leave _ _) (by simp) (handed _) (by simp [holds, hs, Stage.holds])
  · rename_i hs
    have hk := hh.unspawned (.inr (.inr (by simp [hs, Stage.holds])))
    exact h.apart (Gate.line_release _) (by simp [hs]) (by simp) (handed _)
      (by simp [holds, hs, hk, Stage.holds, Task.runs])
  · rename_i hs
    have hk := hh.unspawned (.inr (.inr (by simp [hs, Stage.holds])))
    exact h.apart (Gate.line_release _) (by simp [hs]) (by simp) (handed _)
      (by simp [holds, hs, hk, Stage.holds, Task.runs])
  · rename_i hs
    have hk := hh.unspawned (.inr (.inr (by simp [hs, Stage.holds])))
    exact h.apart (Gate.line_release _) (by simp [hs]) (by simp) (handed _)
      (by simp [holds, hs, hk, Stage.holds, Task.runs])
  · rename_i hs
    exact h.apart rfl (by simp [hs]) (by simp) (handed _) (by simp [holds, hs, Stage.holds])
  · rename_i hw ha hst hf _
    have hholds : t.self.stage.holds = false := by
      cases hs : t.self.stage with
      | failed b =>
        cases b with
        | true => exact absurd hs hf
        | false => rfl
      | announced => exact absurd hs ha
      | started => exact absurd hs hst
      | _ => rfl
    exact h.apart rfl hw (by simp) (handed _) (by simp [holds, hholds])

theorem Orderly.poll (h : Orderly id t) (hp : Polls id c t shown t') : Balances id t t' := by
  have hh := h.handed
  -- `apart` is for the steps that keep the line, `leaves` for those that take `id` out of it.
  cases hp with
  | exhausted => exact h.close
  | closed => exact .refl h
  | waited => exact .refl h
  | unsettled => exact .refl h
  | refused hs =>
    exact h.apart rfl (by simp [hs]) (by simp) (.of_over (.inr (.inr rfl)))
      (by simp [holds, hs, Stage.holds])
  | admitted hs _ hg =>
    have hk := hh.unspawned (.inl hs)
    have hstock := Gate.stock_of_take? hg
    exact h.apart (Gate.line_of_take? hg) (by simp [hs]) (by simp) ⟨fun _ => hk, by simp⟩
      (by simpa [holds, hs, hk, Stage.holds, Task.runs] using hstock)
  | queued hs =>
    have hk := hh.unspawned (.inl hs)
    have hn := h.unlined (by simp [hs])
    refine ⟨⟨?_, by simp, ⟨fun _ => hk, by simp⟩⟩, ?_, ?_⟩
    · simpa using List.nodup_append.mpr ⟨h.nodup, List.nodup_singleton id, by
        rintro a ha b hb rfl
        exact hn (List.mem_singleton.mp hb ▸ ha)⟩
    · intro j hj
      simp [hj]
    · simp [holds, hs, Stage.holds]
  | left hs =>
    exact h.leaves (Gate.line_leave _ _) (by simp) (.of_over (.inr (.inr rfl)))
      (by simp [holds, hs, Stage.holds])
  | granted hs _ hg =>
    have hk := hh.unspawned (.inr (.inl hs))
    have hm := Gate.isGranted_iff.mp hg
    have hstock := Gate.stock_claim hm
    exact h.leaves (Gate.line_claim hm) (by simp) ⟨fun _ => hk, by simp⟩
      (by simpa [holds, hs, hk, Stage.holds, Task.runs] using hstock)
  | untargeted hs =>
    have hk := hh.unspawned (.inr (.inr (by simp [hs, Stage.holds])))
    exact h.apart rfl (by simp [hs]) (by simp) ⟨fun _ => hk, by simp⟩
      (by simp [holds, hs, Stage.holds])
  | halted hs =>
    have hk := hh.unspawned (.inr (.inr (by simp [hs, Stage.holds])))
    exact h.apart rfl (by simp [hs]) (by simp) ⟨fun _ => hk, by simp⟩
      (by simp [holds, hs, Stage.holds])
  | begun hs =>
    have hk := hh.unspawned (.inr (.inr (by simp [hs, Stage.holds])))
    exact h.apart rfl (by simp [hs]) (by simp) ⟨fun _ => hk, by simp⟩
      (by simp [holds, hs, Stage.holds])
  | spawned hs =>
    exact h.apart rfl (by simp [hs]) (by simp) ⟨by simp [Stage.holds], by simp⟩
      (by simp [holds, hs, Stage.holds, Task.runs])
  | succeeded hs =>
    exact h.apart rfl (by simp [hs]) (by simp) (.of_over (.inr (.inl rfl)))
      (by simp [holds, hs, Stage.holds])
  | failed hs =>
    exact h.apart rfl (by simp [hs]) (by simp) (.of_over (.inr (.inr rfl)))
      (by simp [holds, hs, Stage.holds])
  | panicked hs =>
    exact h.apart rfl (by simp [hs]) (by simp) (.of_over (.inr (.inr rfl)))
      (by simp [holds, hs, Stage.holds])

theorem TaskSteps.goes (hs : TaskSteps g id c t t') : t' = t ∨
    t.self.task.runs = true ∧ (t'.self.task.runs = true ∧ t'.gate = t.gate ∨
      (∃ reply, t'.self.task = .ended reply) ∧ t'.gate = t.gate.release) := by
  cases hs with
  | absent => exact .inl rfl
  | ended => exact .inl rfl
  | unreplied => exact .inl rfl
  | openPanicked h => exact .inr ⟨by simp [h, Task.runs], .inr ⟨⟨_, rfl⟩, rfl⟩⟩
  | trackPanicked h => exact .inr ⟨by simp [h, Task.runs], .inr ⟨⟨_, rfl⟩, rfl⟩⟩
  | buildPanicked h => exact .inr ⟨by simp [h, Task.runs], .inr ⟨⟨_, rfl⟩, rfl⟩⟩
  | reportPanicked h => exact .inr ⟨by simp [h, Task.runs], .inr ⟨⟨_, rfl⟩, rfl⟩⟩
  | flushPanicked h => exact .inr ⟨by simp [h, Task.runs], .inr ⟨⟨_, rfl⟩, rfl⟩⟩
  | stopped h => exact .inr ⟨by simp [h, Task.runs], .inr ⟨⟨_, rfl⟩, rfl⟩⟩
  | settled h => exact .inr ⟨by simp [h, Task.runs], .inr ⟨⟨_, rfl⟩, rfl⟩⟩
  | _ => exact .inr ⟨by simp [Task.runs, *], .inl ⟨rfl, rfl⟩⟩

theorem Orderly.task (h : Orderly id t) (hs : TaskSteps g id c t t') : Balances id t t' := by
  have hstage := hs.stage_eq
  rcases hs.goes with rfl | ⟨hr, hgoes⟩
  · exact .refl h
  · have hk : t.self.task ≠ .absent := by
      intro hk
      simp [hk, Task.runs] at hr
    -- The stream has handed its permit to the task that runs, and stands in no line.
    have hs : ¬ (t.self.stage = .idle ∨ t.self.stage = .waiting ∨ t.self.stage.holds = true) :=
      fun hs => hk (h.handed.unspawned hs)
    have hw : t.self.stage ≠ .waiting := fun hw => hs (.inr (.inl hw))
    have hn : t.self.stage.holds = false := by
      rw [Bool.eq_false_iff]
      exact fun hn => hs (.inr (.inr hn))
    have handed (hk' : t'.self.task ≠ .absent) : t'.self.Handed :=
      ⟨fun hs' => absurd (hstage ▸ hs') hs, fun _ => hk'⟩
    rcases hgoes with ⟨hr', hg⟩ | ⟨⟨reply, hk'⟩, hg⟩
    · refine h.apart (by rw [hg]) hw (hstage ▸ hw) (handed ?_) (by simp [holds, hg, hr, hr'])
      intro hk'
      simp [hk', Task.runs] at hr'
    · refine h.apart (by rw [hg, Gate.line_release]) hw (hstage ▸ hw) (handed (by simp [hk'])) ?_
      rw [hg, Gate.stock_release]
      simp [holds, hstage, hn, hk', hr]

theorem Orderly.work (h : Orderly id t) (hs : WorkSteps g id t t') : Balances id t t' := by
  have hg : t'.gate = t.gate := by cases hs <;> rfl
  have hself := hs.self_eq
  have hh : t'.self.Handed := by
    rw [hself]
    exact ⟨h.handed.unspawned, h.handed.spawned⟩
  refine ⟨⟨hg ▸ h.nodup, ?_, hh⟩, fun j _ => by rw [hg], ?_⟩
  · rw [hg, hs.stage_eq]
    exact h.mem
  · rw [hg, hself]
    rfl

def IsDone (x : Execution) : Prop :=
  (∃ reply, x.task = .ended reply) ∨ x.task = .absent ∧ x.stage.IsOver

structure Unadmitted (x : Execution) : Prop where
  task : x.task = .absent
  stage : x.stage = .idle ∨ x.stage = .waiting ∨ x.stage = .failed false ∨ x.stage = .closed

theorem Unadmitted.close (h : Unadmitted t.self) : Unadmitted (close id t).self := by
  rw [close_self]
  exact ⟨h.task, .inr (.inr (.inr rfl))⟩

theorem Unadmitted.poll (h : Unadmitted t.self) (hp : Polls id true t shown t') :
    Unadmitted t'.self ∧ shown.item? ≠ some (.ok announcement) := by
  have hs := h.stage
  cases hp with
  | refused => exact ⟨⟨h.task, .inr (.inr (.inl rfl))⟩, by simp [Polled.item?]⟩
  | left => exact ⟨⟨h.task, .inr (.inr (.inl rfl))⟩, by simp [Polled.item?]⟩
  | queued => exact ⟨⟨h.task, .inr (.inl rfl)⟩, by simp [Polled.item?]⟩
  | waited => exact ⟨h, by simp [Polled.item?]⟩
  | closed => exact ⟨h, by simp [Polled.item?]⟩
  | exhausted => exact ⟨h.close, by simp [Polled.item?]⟩
  | admitted _ hc => cases hc
  | granted _ hc => cases hc
  | _ => simp_all

theorem Unadmitted.holds_eq {x : Execution} (h : Unadmitted x) : x.holds = false := by
  rcases h.stage with hs | hs | hs | hs <;> simp [holds, hs, h.task, Stage.holds, Task.runs]

inductive Turns (g : Engine) (id : Nat) (c : Bool) (t : Turn) : Turn → Prop where
  | still : Turns g id c t t
  | polled {shown : Polled} {t' t'' : Turn} (h : Turns g id c t t')
    (hp : Polls id c t' shown t'') : Turns g id c t t''
  | closed {t' : Turn} (h : Turns g id c t t') : Turns g id c t (close id t')
  | tasked {t' t'' : Turn} (h : Turns g id c t t') (hs : TaskSteps g id c t' t'') :
    Turns g id c t t''
  | worked {t' t'' : Turn} (h : Turns g id c t t') (hs : WorkSteps g id t' t'') :
    Turns g id c t t''

theorem Orderly.turns (h : Orderly id t) (ht : Turns g id c t t') : Balances id t t' := by
  induction ht with
  | still => exact .refl h
  | polled _ hp ih => exact ih.trans (ih.orderly.poll hp)
  | closed _ ih => exact ih.trans ih.orderly.close
  | tasked _ hs ih => exact ih.trans (ih.orderly.task hs)
  | worked _ hs ih => exact ih.trans (ih.orderly.work hs)

end

end Execution

namespace Service

open Execution

def executions (s : Service) : List Execution := s.served.map Served.execution

section

variable {s s' : Service} {e : Step} {id : Nat} {x x' : Served} {shown : Polled} {t : Turn}

theorem executions_entry (hx : s.served[id]? = some x) :
    s.executions[id]? = some x.execution := by
  simp [executions, hx]

theorem executions_set (h : s.served[id]? = some x) :
    s.executions.set id x.execution = s.executions := by
  obtain ⟨hi, rfl⟩ := List.getElem?_eq_some_iff.mp h
  rw [executions, ← List.map_set, List.set_getElem_self]

theorem executions_put (x : Served) (t : Turn) :
    (s.put id x t).executions = s.executions.set id t.self := by
  simp [executions, put, List.map_set]

theorem executions_closeFeed (x : Served) :
    (s.closeFeed id x).executions = s.executions.set id (close id (s.turn x)).self := by
  simp [executions, closeFeed_served, List.map_set]

theorem gate_closeFeed (x : Served) :
    (s.closeFeed id x).gate = (close id (s.turn x)).gate := by
  unfold closeFeed
  split <;> rfl

theorem Feeds.turns (g : Engine) (hx : s.served[id]? = some x) (hf : Feeds s id x shown x' s') :
    ∃ t, Turns g id x.cancelled (s.turn x) t ∧ s'.gate = t.gate ∧
      s'.executions = s.executions.set id t.self := by
  have polled {shown t} (hp : Execution.poll id x.cancelled (s.turn x) = (shown, t)) :
      Turns g id x.cancelled (s.turn x) t := .polled .still (polls_of_poll hp)
  cases hf with
  | closed => exact ⟨_, .still, rfl, (executions_set hx).symm⟩
  | finished => exact ⟨_, .closed .still, gate_closeFeed x, executions_closeFeed x⟩
  | reported => exact ⟨_, .still, rfl, executions_put _ _⟩
  | direct _ hp => exact ⟨_, polled hp, rfl, executions_put _ _⟩
  | failed _ hp => exact ⟨_, polled hp, rfl, executions_put _ _⟩
  | ended _ hp => exact ⟨_, polled hp, rfl, executions_put _ _⟩
  | shown _ hp => exact ⟨_, polled hp, rfl, executions_put _ _⟩
  | pending _ hp => exact ⟨_, polled hp, rfl, executions_put _ _⟩
  | @silenced n t _ hp =>
    refine ⟨_, .closed (polled hp), gate_closeFeed _, ?_⟩
    rw [executions_closeFeed, executions_put, List.set_set]
    rfl

theorem turns_act (hx : s.served[id]? = some x) (hs : e.action.subject? = some id) :
    ∃ t, Turns e.engine id x.cancelled (s.turn x) t ∧ (s.act e).gate = t.gate ∧
      (s.act e).executions = s.executions.set id t.self := by
  unfold act
  cases ha : e.action with
  | poll i =>
    obtain rfl : i = id := by simpa [ha, Action.subject?] using hs
    obtain ⟨x', hf⟩ := feeds_poll hx
    exact hf.turns e.engine hx
  | drop i =>
    obtain rfl : i = id := by simpa [ha, Action.subject?] using hs
    simp only [drop, hx]
    split
    · exact ⟨_, .closed .still, gate_closeFeed x, executions_closeFeed x⟩
    · exact ⟨_, .still, rfl, (executions_set hx).symm⟩
  | task i =>
    obtain rfl : i = id := by simpa [ha, Action.subject?] using hs
    have hsteps := taskSteps_stepTask e.engine i x.cancelled (s.turn x)
    simp only [stepTask, hx]
    exact ⟨_, .tasked .still hsteps, rfl, executions_put _ _⟩
  | work i =>
    obtain rfl : i = id := by simpa [ha, Action.subject?] using hs
    have hsteps := workSteps_stepWork e.engine i (s.turn x)
    simp only [stepWork, hx]
    exact ⟨_, .worked .still hsteps, rfl, executions_put _ _⟩
  | _ => simp [ha, Action.subject?] at hs

theorem gate_cancel (s : Service) (id : Nat) : (s.cancel id).gate = s.gate := by
  unfold cancel
  split <;> rfl

theorem gate_register (s : Service) (r : ExecuteRequest) : (s.register r).gate = s.gate := by
  unfold register
  cases s.running.get? r.traceId with
  | none => rfl
  | some p => exact gate_cancel _ p.execution

theorem gate_stop (s : Service) (r : StopRequest) : (s.stop r).gate = s.gate := by
  unfold stop
  split
  · rfl
  · rfl
  · exact gate_cancel _ _

theorem gate_act (hs : e.action.subject? = none) : (s.act e).gate = s.gate := by
  unfold act
  cases ha : e.action with
  | handle c =>
    cases c with
    | isAlive => rfl
    | execute r => exact gate_register (s.note .eventReceived) r
    | stop r => exact gate_stop (s.note .eventReceived) r
  | launch r b => rfl
  | cancel i =>
    simp only [cancelLaunched]
    split
    · split
      · exact gate_cancel s i
      · rfl
    · rfl
  | wait now => rfl
  | _ => simp [ha, Action.subject?] at hs

theorem executions_act (hs : e.action.subject? = none) :
    (s.act e).executions = s.executions ++ (s.arrival e).map Served.execution := by
  obtain ⟨xs, hxs, hlen⟩ := s.act_served e
  have heq : xs.map Served.execution = s.executions := by
    refine List.ext_getElem? fun id => ?_
    rw [executions, List.getElem?_map, List.getElem?_map]
    cases hx : s.served[id]? with
    | none =>
      have hid : xs.length ≤ id := by simpa [hlen] using hx
      rw [List.getElem?_eq_none hid]
    | some x =>
      have hid : id < xs.length := hlen ▸ (List.getElem?_eq_some_iff.mp hx).1
      have hact := act_other (e := e) hx (by simp [hs])
      rw [hxs, List.getElem?_append_left hid] at hact
      rw [hact]
      rfl
  rw [executions, hxs, List.map_append, heq]

end

/-- Every permit of `n` is at the gate or with one execution, and those in line are those that
wait. -/
structure Conserved (n : Nat) (s : Service) : Prop where
  total : s.gate.stock + s.executions.countP Execution.holds = n
  nodup : s.gate.line.Nodup
  mem : ∀ id, id ∈ s.gate.line ↔ ∃ x, s.executions[id]? = some x ∧ x.stage = .waiting
  handed : ∀ x ∈ s.executions, x.Handed

theorem conserved_start (g : Engine) (models : List LanguageModel) :
    (start g models).Conserved g.config.permits where
  total := rfl
  nodup := List.nodup_nil
  mem id := by simp [start, executions, Gate.line, Gate.ofLimit]
  handed x hx := by simp [start, executions] at hx

theorem countP_set_add {α : Type} (p : α → Bool) {l : List α} {i : Nat} {a b : α}
    (h : l[i]? = some a) :
    (l.set i b).countP p + (p a).toNat = l.countP p + (p b).toNat := by
  obtain ⟨hi, rfl⟩ := List.getElem?_eq_some_iff.mp h
  have hpos : p l[i] = true → 0 < l.countP p :=
    fun hp => List.countP_pos_iff.mpr ⟨l[i], List.getElem_mem hi, hp⟩
  rw [List.countP_set hi]
  cases ha : p l[i] with
  | false => cases p b <;> simp
  | true =>
    have := hpos ha
    cases p b <;> simp <;> omega

theorem Conserved.turns {n : Nat} {s s' : Service} {g : Engine} {id : Nat} {c : Bool} {x : Served}
    {t : Turn} (h : s.Conserved n) (hx : s.served[id]? = some x) (ht : Turns g id c (s.turn x) t)
    (hg : s'.gate = t.gate) (hs : s'.executions = s.executions.set id t.self) :
    s'.Conserved n := by
  have hxs := executions_entry hx
  obtain ⟨hid, hget⟩ := List.getElem?_eq_some_iff.mp hxs
  have ho : Orderly id (s.turn x) := by
    refine ⟨h.nodup, ?_, h.handed _ (List.mem_of_getElem? hxs)⟩
    rw [show (s.turn x).gate = s.gate from rfl, h.mem, hxs]
    simp
  have hb := ho.turns ht
  refine ⟨?_, hg ▸ hb.orderly.nodup, fun j => ?_, ?_⟩
  · have hstock : t.gate.stock + t.self.holds.toNat =
        s.gate.stock + x.execution.holds.toNat := hb.stock
    have htotal := h.total
    have hcount := countP_set_add Execution.holds (b := t.self) hxs
    rw [hg, hs]
    omega
  · rw [hg, hs]
    by_cases hj : j = id
    · subst hj
      rw [hb.orderly.mem, List.getElem?_set_self hid]
      simp
    · rw [hb.others j hj, List.getElem?_set_ne (Ne.symm hj)]
      exact h.mem j
  · intro y hy
    rw [hs] at hy
    rcases List.mem_or_eq_of_mem_set hy with hy | rfl
    · exact h.handed y hy
    · exact hb.orderly.handed

theorem Conserved.still {n : Nat} {s : Service} {e : Step} (h : s.Conserved n)
    (hs : e.action.subject? = none) : (s.act e).Conserved n := by
  have hfresh {y : Execution} (hy : y ∈ (s.arrival e).map Served.execution) :
      ∃ r, y = .ofRequest r := by
    obtain ⟨x, hx, rfl⟩ := List.mem_map.mp hy
    obtain ⟨i, hi⟩ := List.mem_iff_getElem?.mp hx
    obtain ⟨-, -, hr⟩ := of_arrival (arrival_entry hi).2
    exact hr
  have hidle {y : Execution} (hy : y ∈ (s.arrival e).map Served.execution) :
      y.holds = false ∧ y.stage ≠ .waiting ∧ y.Handed := by
    obtain ⟨r, rfl⟩ := hfresh hy
    exact ⟨rfl, by simp [ofRequest], fun _ => rfl, by simp [ofRequest]⟩
  have hnone : ((s.arrival e).map Served.execution).countP Execution.holds = 0 :=
    List.countP_eq_zero.mpr fun y hy => by simp [(hidle hy).1]
  refine ⟨?_, by rw [gate_act hs]; exact h.nodup, fun id => ?_, ?_⟩
  · rw [gate_act hs, executions_act hs, List.countP_append, hnone]
    exact h.total
  · rw [gate_act hs, executions_act hs, h.mem]
    refine exists_congr fun y => and_congr_left fun hy => ?_
    by_cases hid : id < s.executions.length
    · rw [List.getElem?_append_left hid]
    · have hlen := Nat.le_of_not_lt hid
      rw [List.getElem?_eq_none hlen, List.getElem?_append_right hlen]
      refine iff_of_false (by simp) fun hm => ?_
      exact (hidle (List.mem_of_getElem? hm)).2.1 hy
  · intro y hy
    rw [executions_act hs] at hy
    rcases List.mem_append.mp hy with hy | hy
    · exact h.handed y hy
    · exact (hidle hy).2.2

theorem Conserved.act {n : Nat} {s : Service} (h : s.Conserved n) (e : Step) :
    (s.act e).Conserved n := by
  cases hs : e.action.subject? with
  | none => exact h.still hs
  | some id =>
    cases hx : s.served[id]? with
    | none =>
      rw [act_absent hx hs]
      exact h
    | some x =>
      obtain ⟨t, ht, hg, hexec⟩ := turns_act hx hs
      exact h.turns hx ht hg hexec

theorem conserved_run (g : Engine) (models : List LanguageModel) (es : List Step) :
    ((start g models).run es).Conserved g.config.permits := by
  induction es using List.reverseRecOn with
  | nil => exact conserved_start g models
  | append_singleton es e ih => simpa using ih.act e

theorem countP_range {α : Type} (p : α → Bool) (l : List α) :
    (List.range l.length).countP (fun i => (l[i]?).any p) = l.countP p := by
  induction l using List.reverseRecOn with
  | nil => rfl
  | append_singleton l a ih =>
    have hl : (List.range l.length).countP (fun i => ((l ++ [a])[i]?).any p) =
        (List.range l.length).countP (fun i => (l[i]?).any p) := by
      refine List.countP_congr fun i hi => ?_
      rw [List.getElem?_append_left (List.mem_range.mp hi)]
    rw [List.length_append, List.length_singleton, List.range_succ, List.countP_append,
      List.countP_append, hl, ih]
    simp

def holders (s : Service) : List Nat :=
  (List.range s.served.length).filter fun id =>
    s.gate.isGranted id || (s.executions[id]?).any Execution.holds

section

variable {n : Nat} {s : Service} {id : Nat} {x : Execution}

theorem Conserved.unheld (h : s.Conserved n) (hx : s.executions[id]? = some x)
    (hs : x.stage = .idle ∨ x.stage = .waiting) : x.holds = false := by
  have hk := (h.handed x (List.mem_of_getElem? hx)).unspawned (hs.imp_right .inl)
  rcases hs with hs | hs <;> simp [Execution.holds, hs, hk, Stage.holds, Task.runs]

theorem Conserved.free_add_holders (h : s.Conserved n) : s.gate.free + s.holders.length = n := by
  have hgranted : s.gate.granted.Nodup := (List.nodup_append.mp h.nodup).1
  have hwaiting {id : Nat} (hid : id ∈ s.gate.granted) :
      ∃ x, s.executions[id]? = some x ∧ x.holds = false := by
    obtain ⟨x, hx, hs⟩ := (h.mem id).mp (List.mem_append_left _ hid)
    exact ⟨x, hx, h.unheld hx (.inr hs)⟩
  have hlen : s.executions.length = s.served.length := List.length_map _
  have hperm : s.holders.Perm (s.gate.granted ++
      (List.range s.served.length).filter fun id => (s.executions[id]?).any Execution.holds) := by
    refine (List.perm_ext_iff_of_nodup (List.nodup_range.filter _) ?_).mpr fun id => ?_
    · refine List.nodup_append.mpr ⟨hgranted, List.nodup_range.filter _, ?_⟩
      rintro a ha b hb rfl
      obtain ⟨x, hx, hn⟩ := hwaiting ha
      simp [hx, hn] at hb
    · have hlt (hid : id ∈ s.gate.granted) : id < s.served.length := by
        obtain ⟨x, hx, -⟩ := hwaiting hid
        exact hlen ▸ (List.getElem?_eq_some_iff.mp hx).1
      simp only [List.mem_filter, List.mem_range, List.mem_append, Bool.or_eq_true,
        Gate.isGranted_iff]
      tauto
  have hcount := countP_range Execution.holds s.executions
  rw [hlen, List.countP_eq_length_filter] at hcount
  have htotal := h.total
  rw [hperm.length_eq, List.length_append, hcount]
  simp only [Gate.stock] at htotal
  omega

theorem Conserved.waiting_of_holders (h : s.Conserved n) (hx : s.executions[id]? = some x)
    (hn : x.holds = false) (hid : id ∈ s.holders) : x.stage = .waiting := by
  have hh := (List.mem_filter.mp hid).2
  simp only [hx, Option.any_some, hn, Bool.or_false, Gate.isGranted_iff] at hh
  obtain ⟨y, hy, hs⟩ := (h.mem id).mp (List.mem_append_left _ hh)
  obtain rfl := Option.some.inj (hx.symm.trans hy)
  exact hs

theorem Conserved.free_of_closed (h : s.Conserved n)
    (hall : ∀ x ∈ s.executions, x.stage = .closed ∧ x.task.runs = false) : s.gate.free = n := by
  have hline : s.gate.line = [] := by
    refine List.eq_nil_iff_forall_not_mem.mpr fun id hid => ?_
    obtain ⟨x, hx, hs⟩ := (h.mem id).mp hid
    rw [(hall x (List.mem_of_getElem? hx)).1] at hs
    cases hs
  have hgranted : s.gate.granted = [] := (List.append_eq_nil_iff.mp hline).1
  have hnone : s.executions.countP Execution.holds = 0 := by
    refine List.countP_eq_zero.mpr fun x hx => ?_
    obtain ⟨hs, hr⟩ := hall x hx
    simp [Execution.holds, hs, hr]
  have htotal := h.total
  simpa [Gate.stock, hgranted, hnone] using htotal

end

section

variable {g : Engine} {models : List LanguageModel} {es pre : List Step} {id : Nat} {x y : Served}

theorem handed_run (hx : ((start g models).run es).served[id]? = some x) : x.execution.Handed :=
  (conserved_run g models es).handed _ (List.mem_of_getElem? (executions_entry hx))

theorem closed_run (hx : ((start g models).run es).served[id]? = some x)
    (hf : x.front = .closed) : x.execution.stage = .closed := by
  revert hf
  refine run_induction (motive := fun es id x => x.front = .closed → x.execution.stage = .closed)
    ?_ ?_ hx
  · intro es e x ha hf
    obtain ⟨-, hs, -⟩ := of_arrival ha
    simp [hf, Front.streams] at hs
  · intro es e id x x' hx hm ih hf
    cases hm with
    | rested => exact ih hf
    | undropped => exact ih hf
    | dropped => rw [close_self]
    | tasked =>
      have hs := taskSteps_stepTask e.engine id x.cancelled (((start g models).run es).turn x)
      exact hs.stage_eq.trans (ih hf)
    | worked =>
      have hs := workSteps_stepWork e.engine id (((start g models).run es).turn x)
      exact hs.stage_eq.trans (ih hf)
    | polled _ hfeeds =>
      cases hfeeds with
      | closed => exact ih hf
      | finished => rw [close_self]
      | silenced => rw [close_self]
      | _ => simp_all

theorem holds_of_announced (hx : ((start g models).run es).served[id]? = some x)
    (ha : .ok announcement ∈ (start g models).items id es) (hd : ¬ x.execution.IsDone) :
    x.execution.holds = true := by
  have hh := handed_run hx
  have hended : ∀ reply, x.execution.task ≠ .ended reply := fun reply hk => hd (.inl ⟨reply, hk⟩)
  have of_over (ho : x.execution.stage.IsOver) : x.execution.holds = true := by
    have hr := Task.runs_of (fun hk => hd (.inr ⟨hk, ho⟩)) hended
    simp [Execution.holds, hr]
  have hsaid := (told_run hx).said
  generalize (start g models).items id es = items at ha hsaid
  generalize hs : x.execution.stage = stage at hsaid
  cases hsaid with
  | idle => cases ha
  | waiting => cases ha
  | announced => simp [Execution.holds, hs, Stage.holds]
  | started => simp [Execution.holds, hs, Stage.holds]
  | awaiting => simp [Execution.holds, Task.runs_of (hh.spawned hs) hended]
  | failed => exact of_over (.inr (.inr ⟨_, hs⟩))
  | succeeded => exact of_over (.inl hs)
  | closed => exact of_over (.inr (.inl hs))
  | dropped => exact of_over (.inr (.inl hs))

theorem Moves.unadmitted {s : Service} {e : Step} {x x' : Served} (hx : s.served[id]? = some x)
    (hm : Moves s e id x x') (h : x.cancelled = true ∧ x.execution.Unadmitted) :
    (x'.cancelled = true ∧ x'.execution.Unadmitted) ∧
      (stream id s e).bind Polled.item? ≠ some (.ok announcement) := by
  refine ⟨hm.keeps (P := fun c z => c = true ∧ z.Unadmitted) ?_ ?_ ?_ ?_ ?_ h, ?_⟩
  · intro z c c' hc h
    exact ⟨hc h.1, h.2⟩
  · rintro c shown t t' hp ⟨rfl, h⟩
    exact ⟨rfl, (h.poll hp).1⟩
  · intro c t h
    exact ⟨h.1, h.2.close⟩
  · intro c t t' hs h
    rw [hs.eq_of_absent h.2.task]
    exact h
  · intro c t t' hs h
    rw [hs.self_eq]
    exact ⟨h.1, h.2.task, h.2.stage⟩
  · cases hshown : stream id s e with
    | none => simp
    | some shown =>
      obtain ⟨-, -, hpoll⟩ := of_stream hx hshown
      have hp : Polls id true (s.turn x) shown _ := h.1 ▸ polls_of_poll (Prod.ext hpoll rfl)
      exact (Unadmitted.poll (t := s.turn x) h.2 hp).2

theorem unadmitted_run (hx : ((start g models).run es).served[id]? = some x) (hpre : pre <+: es)
    (hy : ((start g models).run pre).served[id]? = some y) (hc : y.cancelled = true)
    (hs : y.execution.stage = .idle ∨ y.execution.stage = .waiting) :
    x.execution.Unadmitted ∧ .ok announcement ∉ (start g models).items id es := by
  have hh := handed_run hy
  have hy' : y.execution.Unadmitted := ⟨hh.unspawned (by tauto), by tauto⟩
  have hnone : .ok announcement ∉ (start g models).items id pre := by
    have hsaid := (told_run hy).said
    generalize (start g models).items id pre = items at hsaid
    rcases hs with hs | hs <;> rw [hs] at hsaid <;> cases hsaid <;> simp
  obtain ⟨post, rfl⟩ := hpre
  rw [run_append] at hx
  obtain ⟨x', hx', h, hitems⟩ := run_keeps (P := fun fs z =>
      (z.cancelled = true ∧ z.execution.Unadmitted) ∧
        .ok announcement ∉ (start g models).items id (pre ++ fs))
    hy ⟨⟨hc, hy'⟩, by rwa [List.append_nil]⟩
    (fun {fs e z z'} hz hm ih => by
      obtain ⟨hkept, hshown⟩ := hm.unadmitted hz ih.1
      refine ⟨hkept, ?_⟩
      rw [← List.append_assoc, items_concat, run_append, List.mem_append, not_or]
      exact ⟨ih.2, by simpa using hshown⟩) post
  obtain rfl := Option.some.inj (hx.symm.trans hx')
  exact ⟨h.2, hitems⟩

end

structure Bounded (g : Engine) (models : List LanguageModel) (es : List Step) : Prop where
  conserved : ((start g models).run es).gate.free + ((start g models).run es).holders.length =
    g.config.permits
  bounded : ∀ ids : List Nat, ids.Nodup →
    (∀ id ∈ ids, ∃ x, ((start g models).run es).served[id]? = some x ∧
      .ok announcement ∈ (start g models).items id es ∧ ¬ x.execution.IsDone) →
    ids.length ≤ g.config.permits
  barred : ∀ {pre : List Step} {id : Nat} {x y : Served}, pre <+: es →
    ((start g models).run pre).served[id]? = some y → y.cancelled = true →
    y.execution.stage = .idle ∨ y.execution.stage = .waiting →
    ((start g models).run es).served[id]? = some x →
    .ok announcement ∉ (start g models).items id es ∧ x.execution.holds = false ∧
      (id ∈ ((start g models).run es).holders → x.execution.stage = .waiting)
  returned : (∀ x ∈ ((start g models).run es).served,
      x.isLive = false ∧ x.execution.task.runs = false) →
    ((start g models).run es).gate.free = g.config.permits

theorem permits_run (g : Engine) (models : List LanguageModel) (es : List Step) :
    Bounded g models es := by
  have hc := conserved_run g models es
  refine ⟨hc.free_add_holders, ?_, ?_, ?_⟩
  · intro ids hn hall
    have hsub : ids ⊆ ((start g models).run es).holders := by
      intro id hid
      obtain ⟨x, hx, ha, hd⟩ := hall id hid
      have hh := holds_of_announced hx ha hd
      have hlt := (List.getElem?_eq_some_iff.mp hx).1
      simp [holders, hlt, executions_entry hx, hh]
    have hle := (List.subperm_of_subset hn hsub).length_le
    have htotal := hc.free_add_holders
    omega
  · intro pre id x y hpre hy hcancelled hs hx
    obtain ⟨hu, hitems⟩ := unadmitted_run hx hpre hy hcancelled hs
    exact ⟨hitems, hu.holds_eq, hc.waiting_of_holders (executions_entry hx) hu.holds_eq⟩
  · intro hall
    refine hc.free_of_closed fun y hy => ?_
    obtain ⟨x, hx, rfl⟩ := List.mem_map.mp hy
    obtain ⟨hlive, hr⟩ := hall x hx
    refine ⟨?_, hr⟩
    obtain ⟨id, hid⟩ := List.mem_iff_getElem?.mp hx
    unfold Served.isLive at hlive
    split at hlive
    · simpa using hlive
    · rename_i hf
      exact closed_run hid hf
    · cases hlive

end Service

end NodeRun
