import NodeRun.Proofs.Permits
import NodeRun.Proofs.Reporting

namespace NodeRun

namespace Compiler

inductive Unwinds (c : Compiler) (w : Workflow) (m : String) : NodeKind → Prop where
  | provider {s : Signature} {schema : Schema} {config : ModelConfig}
    (hs : Schema.ofSignature s = .ok schema) (hc : ModelConfig.ofChoice (choice s w) = .ok config)
    (hp : c.provider config = .panic m) : Unwinds c w m (.signature s)
  | factory {r : Retriever} {cls : String} {factory : BackendFactory} {settings : Settings}
    (hn : nonEmpty r.cls = some cls) (hf : c.retrievers.get? cls = some factory)
    (hs : Field.coerceAll r.component.parameterFields = .ok settings)
    (hp : factory settings = .panic m) : Unwinds c w m (.retriever r)
  | constructor {v : Evaluator} {cls : String} (hn : nonEmpty v.cls = some cls)
    (hh : cls ≠ hostedClass) (hp : c.evaluators.get? cls = some (.panic m)) :
    Unwinds c w m (.evaluator v)

section

variable {c : Compiler} {w : Workflow} {m : String}

theorem Asks.unwinds {k : NodeKind} {call : Effect} {reply : Reply Module}
    (h : c.Asks w k call reply) (hp : reply = .panic m) : c.Unwinds w m k := by
  cases h with
  | provider hs hc => exact .provider hs hc (Reply.map_eq_panic_iff.mp hp)
  | factory hn hf hs => exact .factory hn hf hs (Reply.map_eq_panic_iff.mp hp)
  | constructor hn hh hb => exact .constructor hn hh (Reply.map_eq_panic_iff.mp hp ▸ hb)

theorem Compiles.unwinds {k : NodeKind} {x : Compiled} (h : c.Compiles w k x)
    (hp : x.1 = .panic m) : c.Unwinds w m k := by
  cases h with
  | refused => cases hp
  | made => cases hp
  | asked h => exact h.unwinds hp

theorem Unwinds.compile {k : NodeKind} (h : c.Unwinds w m k) : (c.compileKind w k).1 = .panic m := by
  cases h with
  | provider hs hc hp => simp [compileKind, compileSignature, hs, hc, hp]
  | factory hn hf hs hp => simp [compileKind, compileRetriever, hn, hf, hs, hp, Reply.map]
  | constructor hn hh hp => simp [compileKind, compileEvaluator, hn, hh, hp, Reply.map]

theorem compile_eq_panic_iff {n : Node} :
    (c.compile n w).1 = .panic m ↔ c.Unwinds w m n.kind :=
  ⟨fun h => (c.compiles w n.kind).unwinds h, Unwinds.compile⟩

end

end Compiler

namespace Execution

section

variable {g : Engine} {id : Nat} {c : Bool} {t t' : Turn} {guard : Guard} {n : Node} {m : String}

theorem TaskSteps.unwinds (hs : TaskSteps g id c t t') (hk : t.self.task = .compiling guard)
    (hp : guard.panic? t.site g.tracer .tracking = none) (hn : target t.self.request = .ok n)
    (hu : g.compiler.Unwinds t.self.request.workflow m n.kind) :
    t'.self.task = .ended (.panic m) ∧ t'.gate = t.gate.release ∧
      t'.site.milestones id = t.site.milestones id := by
  have hc : (g.compiler.compile n t.self.request.workflow).1 = .panic m :=
    Compiler.compile_eq_panic_iff.mpr hu
  cases hs with
  | buildPanicked _ _ hn' hb =>
    cases hn.symm.trans hn'
    have hm := g.compiler.compile_effects n t.self.request.workflow
    rw [hb] at hc hm
    cases hc
    exact ⟨rfl, rfl, (Site.adds_emit _ _ _).milestones_still hm⟩
  | trackPanicked hk' hp' =>
    cases hk.symm.trans hk'
    rw [hp] at hp'
    cases hp'
  | untargeted _ _ hn' =>
    rw [hn] at hn'
    cases hn'
  | built _ _ hn' hb =>
    cases hn.symm.trans hn'
    rw [hb] at hc
    cases hc
  | unbuilt _ _ hn' hb =>
    cases hn.symm.trans hn'
    rw [hb] at hc
    cases hc
  | _ => simp_all

theorem Entered.opened_once {r : ExecuteRequest} {s : Site} {opens : List Effect}
    (h : Entered r s opens guard) (hg : guard.isSome = true) :
    (opens.filterMap Effect.options?).length = 1 := by
  cases h with
  | untraced => cases hg
  | refused => cases hg
  | opened _ _ hes => exact hes ▸ rfl

end

end Execution

def Engine.unwinding : Engine :=
  { Engine.bare with
    compiler := { Engine.bare.compiler with provider := fun _ => .panic "boom" }
    reporter := .recording }

def Action.unwound : List Action :=
  [.launch ⟨"t",
      { Workflow.new "w" (.named "m") with
        nodes := [⟨"n", .signature ⟨.unset, none, none, none⟩⟩] }, "n", ∅⟩ false,
    .poll 0, .poll 0, .poll 0, .task 0, .task 0, .poll 0]

namespace Service

open Execution

theorem Moves.still_of_ended {s : Service} {e : Step} {id : Nat} {x x' : Served}
    {reply : Reply Prediction} (hx : s.served[id]? = some x) (hm : Moves s e id x x')
    (hr : x.execution.Marked s.site id x.cancelled) (hk : x.execution.task = .ended reply) :
    (s.act e).site.milestones id = s.site.milestones id := by
  cases hm with
  | rested hs => exact milestones_other hs
  | polled ha => exact milestones_still (by simp [ha]) id
  | dropped ha => exact milestones_still (by simp [ha]) id
  | undropped ha => exact milestones_still (by simp [ha]) id
  | tasked ha =>
    have hs := taskSteps_stepTask e.engine id x.cancelled (s.turn x)
    have ht : Execution.stepTask e.engine id x.cancelled (s.turn x) = s.turn x :=
      hs.eq_of_ended hk
    simp [act, ha, stepTask, hx, ht]
  | worked ha =>
    have hs := workSteps_stepWork e.engine id (s.turn x)
    have ht := hs.eq_of_over (hr.reached.isOver (by simp [hk]))
    simp [act, ha, stepWork, hx, ht]

section

variable {g : Engine} {models : List LanguageModel} {es pre fore : List Step} {e f : Step}
  {id : Nat} {x y : Served} {shown : Polled} {m : String}

theorem milestones_of_ended {reply : Reply Prediction}
    (hx : ((start g models).run pre).served[id]? = some x)
    (hk : x.execution.task = .ended reply) (post : List Step) :
    ((start g models).run (pre ++ post)).site.milestones id =
      ((start g models).run pre).site.milestones id := by
  obtain ⟨-, -, h⟩ := run_keeps
    (P := fun fs _ => ((start g models).run (pre ++ fs)).site.milestones id =
      ((start g models).run pre).site.milestones id) hx (by rw [List.append_nil])
    (fun {fs e z z'} hz hm ih => by
      rw [← run_append] at hz hm
      have hkz := ended_run hz (List.prefix_append pre fs) hx hk
      have hstill := hm.still_of_ended hz (marked_run hz) hkz
      rw [← List.append_assoc, run_append, run_cons, run_nil, hstill, ih]) post
  exact h

theorem settled_stays (hx : ((start g models).run pre).served[id]? = some x)
    (h : Settled x.execution) (hpre : pre <+: es)
    (hy : ((start g models).run es).served[id]? = some y) : Settled y.execution := by
  obtain ⟨post, rfl⟩ := hpre
  rw [run_append] at hy
  obtain ⟨y', hy', hs⟩ := run_keeps (P := fun _ z => Settled z.execution) hx h
    (fun {fs e z z'} hz hm hs => by
      rw [← run_append] at hz hm
      exact (hm.settled hz hs (marked_run hz)).1) post
  obtain rfl := Option.some.inj (hy.symm.trans hy')
  exact hs

/-- No stream has shown its last item as long as its task runs. -/
theorem not_last_before (hy : ((start g models).run pre).served[id]? = some y)
    (hk : y.execution.task.runs = true) (ht : Takes pre fore f)
    (hshown : stream id ((start g models).run fore) f = some shown) : shown.isLast = false := by
  by_contra hl
  obtain ⟨z, t, z', -, -, -, hz', hs⟩ := settled_of_last hshown (by simpa using hl)
  rcases (settled_stays hz' hs ht hy).task with h | ⟨reply, h⟩ <;> simp [h, Task.runs] at hk

theorem shown_of_panic (hx : ((start g models).run es).served[id]? = some x)
    (hk : x.execution.task = .ended (.panic m))
    (hshown : stream id ((start g models).run es) e = some shown) (hl : shown.isLast = true) :
    shown = .failure (taskPanic id m) ∧ ∃ now, (start g models).items id (es ++ [e]) =
      [.ok announcement, .ok (startEvent x.execution.request now),
        .error (taskPanic id m)] := by
  obtain ⟨x', t, -, -, hx', hp, -⟩ := settled_of_last hshown hl
  obtain rfl := Option.some.inj (hx.symm.trans hx')
  have late {stage : Stage} (hs : x.execution.stage = stage) :
      stage = .awaiting ∨ stage.IsOver :=
    hs ▸ (marked_run hx).handed.resolve_left (by simp [hk])
  cases hp with
  | refused hs => simpa [Stage.IsOver] using late hs
  | left hs => simpa [Stage.IsOver] using late hs
  | untargeted hs => simpa [Stage.IsOver] using late hs
  | halted hs => simpa [Stage.IsOver] using late hs
  | succeeded _ hk' => cases hk.symm.trans hk'
  | failed _ hk' => cases hk.symm.trans hk'
  | panicked hs hk' =>
    cases hk.symm.trans hk'
    refine ⟨rfl, ?_⟩
    have hsaid := (told_run hx).said
    rw [show x.execution.stage = .awaiting from hs] at hsaid
    rw [items_concat, hshown]
    generalize (start g models).items id es = items at hsaid
    cases hsaid with
    | @awaiting _ now => exact ⟨now, rfl⟩
  | _ => cases hl

theorem unheld_of_ended {reply : Reply Prediction}
    (hx : ((start g models).run es).served[id]? = some x) (hk : x.execution.task = .ended reply) :
    x.execution.holds = false ∧ id ∉ ((start g models).run es).holders := by
  have hh := handed_run hx
  have hstage : ¬ (x.execution.stage = .idle ∨ x.execution.stage = .waiting ∨
      x.execution.stage.holds = true) := fun hs => by simp [hh.unspawned hs] at hk
  have hs : x.execution.stage.holds = false := by
    rw [Bool.eq_false_iff]
    exact fun hs => hstage (.inr (.inr hs))
  have hunheld : x.execution.holds = false := by simp [Execution.holds, hs, hk]
  refine ⟨hunheld, fun hid => hstage (.inr (.inl ?_))⟩
  exact (conserved_run g models es).waiting_of_holders (executions_entry hx) hunheld hid

theorem stream_of_panic (hx : ((start g models).run es).served[id]? = some x)
    (hk : x.execution.task = .ended (.panic m)) (hs : x.execution.stage = .awaiting)
    (hf : f.action = .poll id) :
    stream id ((start g models).run es) f = some (.failure (taskPanic id m)) := by
  have hstreams : x.front.streams = true := by
    by_contra hn
    have ho := (told_run hx).isOver (by simpa using hn)
    simp [hs, Stage.IsOver] at ho
  have hpoll : (Execution.poll id x.cancelled (((start g models).run es).turn x)).1 =
      .failure (taskPanic id m) := by
    simp only [Execution.poll, Execution.pollAwaiting, turn_self, hs, hk, taskPanic]
  exact stream_polled hf hx hstreams (Prod.ext hpoll rfl)

end

/-- The rest of a run whose step `e` after `pre` is a compilation that panics. -/
structure Unwound (g : Engine) (models : List LanguageModel) (es pre : List Step) (e : Step)
    (id : Nat) (m : String) (guard : Guard) (x : Served) : Prop where
  ended : x.execution.task = .ended (.panic m)
  released : (((start g models).run pre).act e).gate = ((start g models).run pre).gate.release
  unheld : x.execution.holds = false ∧ id ∉ ((start g models).run es).holders
  pending : x.execution.stage = .awaiting → ∀ {f : Step}, f.action = .poll id →
    stream id ((start g models).run es) f = some (.failure (taskPanic id m))
  last : ∀ {fore : List Step} {f : Step} {shown : Polled}, Takes es fore f →
    stream id ((start g models).run fore) f = some shown → shown.isLast = true →
    shown = .failure (taskPanic id m) ∧ ∃ now, (start g models).items id (fore ++ [f]) =
      [.ok announcement, .ok (startEvent x.execution.request now), .error (taskPanic id m)]
  unreported : ((start g models).run es).site.reports id = []
  opened : guard.isSome = true → (((start g models).run es).site.opened id).length = 1
  unflushed : ((start g models).run es).site.flushed id = []

theorem unwound_run {g : Engine} {models : List LanguageModel} {es pre : List Step} {e : Step}
    {id : Nat} {x y : Served} {guard : Guard} {n : Node} {m : String} (ht : Takes es pre e)
    (ha : e.action = .task id) (hy : ((start g models).run pre).served[id]? = some y)
    (hk : y.execution.task = .compiling guard)
    (hp : guard.panic? ((start g models).run pre).site e.engine.tracer .tracking = none)
    (hn : target y.execution.request = .ok n)
    (hu : e.engine.compiler.Unwinds y.execution.request.workflow m n.kind)
    (hx : ((start g models).run es).served[id]? = some x) :
    Unwound g models es pre e id m guard x := by
  have hsteps := taskSteps_stepTask e.engine id y.cancelled (((start g models).run pre).turn y)
  obtain ⟨hended, hgate, hstill⟩ := hsteps.unwinds hk hp hn hu
  have hact : ((start g models).run pre).act e = ((start g models).run pre).put id y
      (Execution.stepTask e.engine id y.cancelled (((start g models).run pre).turn y)) := by
    simp only [act, ha, stepTask, hy]
  have hy' := put_entry hy y
    (Execution.stepTask e.engine id y.cancelled (((start g models).run pre).turn y))
  rw [← hact, ← run_nil (((start g models).run pre).act e), ← run_cons, ← run_append] at hy'
  have hx' : x.execution.task = .ended (.panic m) := ended_run hx ht hy' hended
  have hmilestones : ((start g models).run es).site.milestones id =
      ((start g models).run pre).site.milestones id := by
    obtain ⟨post, rfl⟩ := ht
    rw [milestones_of_ended hy' hended, run_append, run_cons, run_nil, hact]
    exact hstill
  have hreached := (marked_run hy).reached
  rw [hk] at hreached
  have hentered : Entered y.execution.request ((start g models).run pre).site
      (((start g models).run es).site.milestones id) guard := by
    rw [hmilestones]
    cases hreached with | compiling _ he => exact he
  refine ⟨hx', ?_, unheld_of_ended hx hx', fun hs _ hf => stream_of_panic hx hx' hs hf,
    ?_, ?_, ?_, ?_⟩
  · rw [hact]
    exact hgate
  · intro fore f shown hf hshown hl
    obtain ⟨z, -, -, hpolled, hz, -⟩ := settled_of_last hshown hl
    have hne : fore ++ [f] ≠ pre ++ [e] := by
      intro heq
      obtain ⟨-, rfl⟩ : fore = pre ∧ f = e := by simpa using List.append_inj' heq rfl
      simp [ha] at hpolled
    rw [request_run hx hf.before hz]
    -- No item before the panic was the last one, and one after it is that of the ended task.
    rcases List.prefix_or_prefix_of_prefix hf ht with hle | hle
    · have hbefore := (List.prefix_concat_iff.mp hle).resolve_left hne
      have hn := not_last_before hy (by simp [hk, Task.runs]) hbefore hshown
      simp [hl] at hn
    · have hafter := (List.prefix_concat_iff.mp hle).resolve_left (Ne.symm hne)
      exact shown_of_panic hz (ended_run hz hafter hy' hended) hshown hl
  · rw [Site.reports_eq]
    exact hentered.unreported
  · rw [Site.opened_eq]
    exact hentered.opened_once
  · rw [Site.flushed_eq]
    exact hentered.unflushed.2

theorem unwound_provider :
    ∃ x, ((start .unwinding []).run (Engine.unwinding.steps Action.unwound)).served[0]? = some x ∧
      Unwound .unwinding [] (Engine.unwinding.steps Action.unwound)
        (Engine.unwinding.steps (Action.unwound.take 5)) ⟨.unwinding, .task 0⟩ 0 "boom"
        (some 0) x := by
  have hx : ((start .unwinding []).run (Engine.unwinding.steps Action.unwound)).served[0]? =
    some _ := rfl
  have hu : Engine.unwinding.compiler.Unwinds
      { Workflow.new "w" (.named "m") with
        nodes := [⟨"n", .signature ⟨.unset, none, none, none⟩⟩] } "boom"
      (.signature ⟨.unset, none, none, none⟩) := .provider rfl rfl rfl
  exact ⟨_, hx, unwound_run ⟨_, rfl⟩ rfl rfl rfl rfl rfl hu hx⟩

theorem unwound_unreported :
    ∃ x, ((start .unwinding []).run (Engine.unwinding.steps Action.unwound)).served[0]? = some x ∧
      x.cancelled = false ∧
      (start .unwinding []).items 0 (Engine.unwinding.steps Action.unwound) =
        [.ok announcement, .ok (startEvent x.execution.request 1700000000000),
          .error (.invocation (.executionPanicked 0 "boom"))] ∧
      (((start .unwinding []).run (Engine.unwinding.steps Action.unwound)).site.opened 0).length =
        1 ∧
      ((start .unwinding []).run (Engine.unwinding.steps Action.unwound)).site.reports 0 = [] ∧
      ((start .unwinding []).run (Engine.unwinding.steps Action.unwound)).site.flushed 0 = [] :=
  ⟨_, rfl, rfl, rfl, rfl, rfl, rfl⟩

end Service

end NodeRun
