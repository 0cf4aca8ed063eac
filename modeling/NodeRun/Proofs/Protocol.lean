import NodeRun.Proofs.Run

namespace NodeRun

namespace ExecuteRequest

def nodeIds (r : ExecuteRequest) : List String := r.workflow.nodes.map Node.id

structure IsTargeted (r : ExecuteRequest) : Prop where
  nodup : r.nodeIds.Nodup
  mem : r.nodeId ∈ r.nodeIds

end ExecuteRequest

namespace Execution

theorem target_ok {r : ExecuteRequest} {n : Node} (h : target r = .ok n) : r.IsTargeted := by
  unfold target Workflow.validate at h
  split at h
  · simp at h
  · rename_i hv
    split at hv
    · simp at hv
    · rename_i hd
      split at h
      · rename_i m hm
        exact ⟨repeated?_eq_none_iff.mp hd, List.mem_map.mpr
          ⟨m, List.mem_of_find?_eq_some hm, by simpa using List.find?_some hm⟩⟩
      · simp at h

inductive Refusal (r : ExecuteRequest) : Error → Prop where
  | duplicate {id : String} (h : 2 ≤ r.nodeIds.count id) :
    Refusal r (.configuration (.duplicateNode id r.workflow.id))
  | missing (hu : r.nodeIds.Nodup) (hm : r.nodeId ∉ r.nodeIds) : Refusal r (.nodeNotFound r.nodeId)
  | cancelled (h : r.IsTargeted) : Refusal r .cancelled

theorem count_of_duplicate {w : Workflow} {id : String} (h : w.duplicate? = some id) :
    2 ≤ (w.nodes.map Node.id).count id := by
  obtain ⟨before, after, heq, hs | hb⟩ := mem_of_repeatedAfter?_eq_some h
  · simp at hs
  · have hc := List.count_pos_iff.mpr hb
    rw [heq, List.count_append, List.count_cons_self]
    omega

theorem target_error {r : ExecuteRequest} {e : Error} (h : target r = .error e) :
    Refusal r e := by
  unfold target Workflow.validate at h
  split at h
  · rename_i e' hv
    cases h
    split at hv
    · rename_i id hd
      cases hv
      exact .duplicate (count_of_duplicate hd)
    · simp at hv
  · rename_i hv
    split at hv
    · simp at hv
    · rename_i hd
      split at h
      · simp at h
      · rename_i hm
        cases h
        refine .missing (repeated?_eq_none_iff.mp hd) ?_
        intro hmem
        obtain ⟨n, hn, hid⟩ := List.mem_map.mp hmem
        have hne := List.find?_eq_none.mp hm n hn
        simp [hid] at hne

def IsStart (r : ExecuteRequest) (e : Event) : Prop :=
  ∃ state inputs, e = .componentState r.nodeId state ∧ state.status = .running ∧
    state.traceId = some r.traceId ∧ state.inputs = some inputs ∧
    ∀ k, inputs.get? k = (r.inputs.get? k).map .str

def IsEnd (r : ExecuteRequest) (e : Event) : Prop :=
  ∃ state, e = .componentState r.nodeId state ∧ state.status = .success ∧
    state.traceId = some r.traceId

theorem isStart_startEvent (r : ExecuteRequest) (now : Int64) : IsStart r (startEvent r now) :=
  ⟨_, rawInputs r, rfl, rfl, rfl, rfl, fun k => by simp [rawInputs]⟩

theorem isEnd_endEvent (r : ExecuteRequest) (p : Prediction) (now : Int64) :
    IsEnd r (endEvent r p now) :=
  ⟨_, rfl, rfl, rfl⟩

inductive Complete (r : ExecuteRequest) : List (Except Error Event) → Prop where
  | unannounced : Complete r [.error .cancelled]
  | refused {e : Error} (h : Refusal r e) : Complete r [.ok announcement, .error e]
  | failed {start : Event} {e : Error} (h : r.IsTargeted) (hs : IsStart r start) :
    Complete r [.ok announcement, .ok start, .error e]
  | succeeded {start last : Event} (h : r.IsTargeted) (hs : IsStart r start) (hl : IsEnd r last) :
    Complete r [.ok announcement, .ok start, .ok last]

inductive Said (r : ExecuteRequest) (dropped : Prop) (whole : List (Except Error Event) → Prop) :
    Stage → List (Except Error Event) → Prop where
  | idle : Said r dropped whole .idle []
  | waiting : Said r dropped whole .waiting []
  | announced : Said r dropped whole .announced [.ok announcement]
  | started {n : Node} {now : Int64} (ht : target r = .ok n) :
    Said r dropped whole .started [.ok announcement, .ok (startEvent r now)]
  | awaiting {n : Node} {now : Int64} (ht : target r = .ok n) :
    Said r dropped whole .awaiting [.ok announcement, .ok (startEvent r now)]
  | failed {holding : Bool} {items : List (Except Error Event)} (h : whole items) :
    Said r dropped whole (.failed holding) items
  | succeeded {items : List (Except Error Event)} (h : whole items) :
    Said r dropped whole .succeeded items
  | closed {items : List (Except Error Event)} (h : whole items) :
    Said r dropped whole .closed items
  | dropped {stage : Stage} {items : List (Except Error Event)} (hd : dropped)
    (h : Said r dropped whole stage items) : Said r dropped whole .closed items

end Execution

namespace Stage

def IsOver (s : Stage) : Prop := s = .succeeded ∨ s = .closed ∨ ∃ b, s = .failed b

end Stage

namespace Execution

section

variable {r : ExecuteRequest} {dropped : Prop} {whole : List (Except Error Event) → Prop}
  {stage : Stage} {items : List (Except Error Event)} {id : Nat} {c : Bool} {t t' : Turn}
  {shown : Polled}

theorem Said.imp {dropped' : Prop} (h : Said r dropped whole stage items)
    (hd : dropped → dropped') : Said r dropped' whole stage items := by
  induction h with
  | idle => exact .idle
  | waiting => exact .waiting
  | announced => exact .announced
  | started ht => exact .started ht
  | awaiting ht => exact .awaiting ht
  | failed h => exact .failed h
  | succeeded h => exact .succeeded h
  | closed h => exact .closed h
  | dropped h' _ ih => exact .dropped (hd h') ih

theorem Said.close (h : Said r dropped whole stage items) (ho : stage.IsOver) :
    Said r dropped whole .closed items := by
  rcases ho with rfl | rfl | ⟨b, rfl⟩
  · cases h with | succeeded h => exact .closed h
  · exact h
  · cases h with | failed h => exact .closed h

theorem Said.of_over (h : Said r False whole stage items) (ho : stage.IsOver) : whole items := by
  cases h.close ho with
  | closed h => exact h
  | dropped hd => exact hd.elim

theorem close_over (h : t.self.stage.IsOver) :
    (close id t).self = { t.self with stage := .closed } := by
  have hs : t.self.stage ≠ .awaiting := by
    intro hs
    simp [Stage.IsOver, hs] at h
  simp [close_self, hs]

theorem Polls.stage_of_ended (h : Polls id c t .ended t') : t'.self.stage = .closed := by
  cases h with
  | exhausted => rw [close_self]
  | closed h => exact h

theorem Polls.over_of_ended (h : Polls id c t .ended t') : t.self.stage.IsOver := by
  cases h with
  | exhausted h => exact h.imp_right .inr
  | closed h => exact .inr (.inl h)

theorem Said.poll (h : Said t.self.request dropped whole t.self.stage items)
    (hp : Polls id c t shown t')
    (hw : ∀ {item}, shown.item? = some item → t'.self.stage.IsOver → whole (items ++ [item])) :
    Said t.self.request dropped whole t'.self.stage (items ++ shown.item?.toList) := by
  cases hp with
  | refused => exact .failed (hw rfl (.inr (.inr ⟨_, rfl⟩)))
  | left => exact .failed (hw rfl (.inr (.inr ⟨_, rfl⟩)))
  | untargeted => exact .failed (hw rfl (.inr (.inr ⟨_, rfl⟩)))
  | halted => exact .failed (hw rfl (.inr (.inr ⟨_, rfl⟩)))
  | failed => exact .failed (hw rfl (.inr (.inr ⟨_, rfl⟩)))
  | panicked => exact .failed (hw rfl (.inr (.inr ⟨_, rfl⟩)))
  | succeeded => exact .succeeded (hw rfl (.inl rfl))
  | admitted hs =>
    rw [hs] at h
    cases h
    exact .announced
  | granted hs =>
    rw [hs] at h
    cases h
    exact .announced
  | queued hs =>
    rw [hs] at h
    cases h
    exact .waiting
  | begun hs ht =>
    rw [hs] at h
    cases h
    exact .started ht
  | spawned hs =>
    rw [hs] at h
    cases h with | started ht => exact .awaiting ht
  | waited => simpa [Polled.item?] using h
  | unsettled => simpa [Polled.item?] using h
  | exhausted hs =>
    rw [close_self]
    simpa [Polled.item?] using h.close (hs.imp_right .inr)
  | closed => simpa [Polled.item?] using h

end

end Execution

namespace Service

open Execution

structure Told (dropped : Prop) (whole : List (Except Error Event) → Prop) (x : Served)
    (items : List (Except Error Event)) : Prop where
  said : Said x.execution.request dropped whole x.execution.stage items
  isOver : x.front.streams = false → x.execution.stage.IsOver

section

variable {s : Service} {e : Step} {id : Nat} {x x' : Served} {dropped : Prop}
  {whole : List (Except Error Event) → Prop} {items : List (Except Error Event)}

theorem Told.polled {shown : Polled} {s' : Service} (h : Told dropped whole x items)
    (hx : s.served[id]? = some x) (ha : e.action = .poll id) (hf : Feeds s id x shown x' s')
    (hw : ∀ {shown t item}, Polls id x.cancelled (s.turn x) shown t →
      shown.item? = some item → t.self.stage.IsOver → whole (items ++ [item])) :
    Told dropped whole x' (items ++ ((stream id s e).bind Polled.item?).toList) := by
  have poll {shown t} (hs : x.front.streams = true)
      (hp : Execution.poll id x.cancelled (s.turn x) = (shown, t)) :
      Polls id x.cancelled (s.turn x) shown t ∧
        Said x.execution.request dropped whole t.self.stage
          (items ++ ((stream id s e).bind Polled.item?).toList) := by
    have hpolls := polls_of_poll hp
    rw [stream_polled ha hx hs hp]
    exact ⟨hpolls, h.said.poll hpolls (hw hpolls)⟩
  cases hf with
  | closed hf =>
    rw [stream_silent hx (by rw [hf]; rfl)]
    simpa using h
  | finished hf =>
    rw [stream_silent hx (by rw [hf]; rfl)]
    refine ⟨?_, fun _ => by rw [close_self]; exact .inr (.inl rfl)⟩
    rw [close_self]
    simpa using h.said.close (h.isOver (by rw [hf]; rfl))
  | reported hf =>
    rw [stream_silent hx (by rw [hf]; rfl)]
    exact ⟨by simpa using h.said, fun _ => h.isOver (by rw [hf]; rfl)⟩
  | direct hf hp =>
    obtain ⟨-, hsaid⟩ := poll (by rw [hf]; rfl) hp
    exact ⟨request_of_poll hp ▸ hsaid, by simp [hf, Front.streams]⟩
  | silenced hf hp =>
    obtain ⟨hpolls, hsaid⟩ := poll (by rw [hf]; rfl) hp
    refine ⟨?_, fun _ => by rw [close_self]; exact .inr (.inl rfl)⟩
    rw [close_self]
    exact request_of_poll hp ▸ hsaid.close (.inr (.inr hpolls.stage_of_failure))
  | failed hf hp =>
    obtain ⟨hpolls, hsaid⟩ := poll (by rw [hf]; rfl) hp
    exact ⟨request_of_poll hp ▸ hsaid, fun _ => .inr (.inr hpolls.stage_of_failure)⟩
  | ended hf hp =>
    obtain ⟨hpolls, hsaid⟩ := poll (by rw [hf]; rfl) hp
    exact ⟨request_of_poll hp ▸ hsaid, fun _ => .inr (.inl hpolls.stage_of_ended)⟩
  | shown hf hp =>
    obtain ⟨-, hsaid⟩ := poll (by rw [hf]; rfl) hp
    exact ⟨request_of_poll hp ▸ hsaid, by simp [hf, Front.streams]⟩
  | pending hf hp =>
    obtain ⟨-, hsaid⟩ := poll (by rw [hf]; rfl) hp
    exact ⟨request_of_poll hp ▸ hsaid, by simp [hf, Front.streams]⟩

theorem Told.moves (h : Told dropped whole x items) (hx : s.served[id]? = some x)
    (hm : Moves s e id x x')
    (hw : ∀ {shown t item}, Polls id x.cancelled (s.turn x) shown t →
      shown.item? = some item → t.self.stage.IsOver → whole (items ++ [item])) :
    Told (dropped ∨ e.action = .drop id) whole x'
      (items ++ ((stream id s e).bind Polled.item?).toList) := by
  have still {x' : Served} (ha : e.action ≠ .poll id)
      (hs : Told (dropped ∨ e.action = .drop id) whole x' items) :
      Told (dropped ∨ e.action = .drop id) whole x'
        (items ++ ((stream id s e).bind Polled.item?).toList) := by
    rw [stream_other ha]
    simpa using hs
  cases hm with
  | rested hs =>
    exact still (Action.ne_poll hs) ⟨h.said.imp .inl, h.isOver⟩
  | polled ha hf =>
    have ht := h.polled hx ha hf hw
    exact ⟨ht.said.imp .inl, ht.isOver⟩
  | dropped ha =>
    refine still (by simp [ha]) ⟨?_, fun _ => by rw [close_self]; exact .inr (.inl rfl)⟩
    rw [close_self]
    exact .dropped (.inr ha) (h.said.imp .inl)
  | undropped ha => exact still (by simp [ha]) ⟨h.said.imp .inl, h.isOver⟩
  | tasked ha =>
    have ht := taskSteps_stepTask e.engine id x.cancelled (s.turn x)
    refine still (by simp [ha]) ⟨?_, ?_⟩
    · rw [ht.self_eq]
      exact h.said.imp .inl
    · rw [ht.self_eq]
      exact h.isOver
  | worked ha =>
    have hw := workSteps_stepWork e.engine id (s.turn x)
    refine still (by simp [ha]) ⟨?_, ?_⟩
    · rw [hw.self_eq]
      exact h.said.imp .inl
    · rw [hw.self_eq]
      exact h.isOver

theorem Told.keeps {P : Execution → Site → Prop} {shown : Polled} {s' : Service}
    (ht : Told dropped whole x items) (hf : Feeds s id x shown x' s')
    (poll : ∀ {shown : Polled} {t : Turn}, Polls id x.cancelled (s.turn x) shown t →
      P t.self t.site)
    (close : ∀ {t : Turn}, t.self.stage.IsOver → P t.self t.site →
      P (close id t).self (close id t).site)
    (h : P x.execution s.site) : P x'.execution s'.site := by
  refine hf.keeps poll ?_ h
  rintro t (⟨ht', hs⟩ | hfailed) hp
  · exact close (ht' ▸ ht.isOver hs) hp
  · exact close (.inr (.inr hfailed)) hp

theorem over_of_stream_ended (hx : s.served[id]? = some x) (h : stream id s e = some .ended) :
    x.execution.stage.IsOver := by
  obtain ⟨-, -, hp⟩ := of_stream hx h
  exact (polls_of_poll (Prod.ext hp rfl)).over_of_ended

theorem told_arrival (s : Service) (es : List Step) (h : (s.run es).arrival e = [x]) :
    Told dropped whole x (s.items (s.run es).served.length (es ++ [e])) := by
  obtain ⟨-, hf, r, hr⟩ := of_arrival h
  rw [items_arrival]
  exact ⟨by rw [hr]; exact .idle, by simp [hf]⟩

end

end Service

namespace Execution

section

variable {r : ExecuteRequest} {dropped : Prop} {stage : Stage} {items : List (Except Error Event)}

theorem refusal_exists (r : ExecuteRequest) : ∃ e, Refusal r e := by
  cases h : target r with
  | error e => exact ⟨e, target_error h⟩
  | ok n => exact ⟨.cancelled, .cancelled (target_ok h)⟩

theorem Said.completes (h : Said r dropped (Complete r) stage items) :
    ∃ rest, Complete r (items ++ rest) := by
  induction h with
  | idle => exact ⟨_, .unannounced⟩
  | waiting => exact ⟨_, .unannounced⟩
  | announced =>
    obtain ⟨e, he⟩ := refusal_exists r
    exact ⟨[.error e], .refused he⟩
  | started ht =>
    exact ⟨[.error .cancelled], .failed (target_ok ht) (isStart_startEvent _ _)⟩
  | awaiting ht =>
    exact ⟨[.error .cancelled], .failed (target_ok ht) (isStart_startEvent _ _)⟩
  | failed h => exact ⟨[], by simpa using h⟩
  | succeeded h => exact ⟨[], by simpa using h⟩
  | closed h => exact ⟨[], by simpa using h⟩
  | dropped _ _ ih => exact ih

theorem Said.complete {id : Nat} {c : Bool} {t t' : Turn} {shown : Polled}
    {item : Except Error Event}
    (h : Said t.self.request dropped (Complete t.self.request) t.self.stage items)
    (hp : Polls id c t shown t') (hi : shown.item? = some item) (ho : t'.self.stage.IsOver) :
    Complete t.self.request (items ++ [item]) := by
  cases hp with
  | refused hs =>
    cases hi
    rw [hs] at h
    cases h
    exact .unannounced
  | left hs =>
    cases hi
    rw [hs] at h
    cases h
    exact .unannounced
  | untargeted hs ht =>
    cases hi
    rw [hs] at h
    cases h
    exact .refused (target_error ht)
  | halted hs ht =>
    cases hi
    rw [hs] at h
    cases h
    exact .refused (.cancelled (target_ok ht))
  | succeeded hs =>
    cases hi
    rw [hs] at h
    cases h with
    | awaiting ht => exact .succeeded (target_ok ht) (isStart_startEvent _ _) (isEnd_endEvent _ _ _)
  | failed hs =>
    cases hi
    rw [hs] at h
    cases h with | awaiting ht => exact .failed (target_ok ht) (isStart_startEvent _ _)
  | panicked hs =>
    cases hi
    rw [hs] at h
    cases h with | awaiting ht => exact .failed (target_ok ht) (isStart_startEvent _ _)
  | _ => simp_all [Stage.IsOver, Polled.item?]

end

end Execution

namespace Service

open Execution

theorem told_run {g : Engine} {models : List LanguageModel} {es : List Step} {id : Nat}
    {x : Served} (h : ((start g models).run es).served[id]? = some x) :
    Told (∃ e ∈ es, e.action = .drop id) (Complete x.execution.request) x
      ((start g models).items id es) := by
  refine run_induction (motive := fun es id x =>
    Told (∃ e ∈ es, e.action = .drop id) (Complete x.execution.request) x
      ((start g models).items id es)) ?_ ?_ h
  · intro es e x ha
    exact told_arrival _ _ ha
  · intro es e id x x' hx hm ht
    have hd : (∃ f ∈ es ++ [e], f.action = .drop id) =
        ((∃ f ∈ es, f.action = .drop id) ∨ e.action = .drop id) := by
      simp [or_and_right, exists_or]
    rw [items_concat, hd, hm.carried.request]
    exact ht.moves hx hm fun hp hi ho => ht.said.complete hp hi ho

theorem items_complete {g : Engine} {models : List LanguageModel} {es : List Step} {id : Nat}
    {x : Served} (hx : ((start g models).run es).served[id]? = some x) :
    (∃ rest, Complete x.execution.request ((start g models).items id es ++ rest)) ∧
      ∀ e, (∀ f ∈ es, f.action ≠ .drop id) →
        stream id ((start g models).run es) e = some .ended →
        Complete x.execution.request ((start g models).items id es) := by
  have ht := (told_run hx).said
  refine ⟨ht.completes, ?_⟩
  intro e hd he
  refine (ht.imp ?_).of_over (over_of_stream_ended hx he)
  rintro ⟨f, hf, ha⟩
  exact hd f hf ha

theorem items_complete_terminal :
    Complete (.ofTerminal "t" "end")
      ((start .bare []).items 0 (Engine.bare.steps Action.whole)) := by
  have hx : ((start .bare []).run (Engine.bare.steps Action.whole)).served[0]? = some _ := rfl
  exact (items_complete hx).2 ⟨.bare, .poll 0⟩ (by decide) (by rfl)

end Service

end NodeRun
