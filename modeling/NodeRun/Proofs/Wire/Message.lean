import NodeRun.Command
import NodeRun.Event
import NodeRun.Proofs.Wire.Workflow

namespace NodeRun

open Decode

def Table.Canonical (t : Table Json) : Prop := ∀ e ∈ t.entries, e.2.Proper

namespace ExecutionStatus

theorem strict_decode : Strict decode toJson (fun _ => True) := strict_variant ofName?_name

end ExecutionStatus

namespace Timestamps

theorem strict_decode : Strict decode toJson (fun _ => True) :=
  .record
    ((Fields.Lawful.optional_all strict_int64 startedAt).map mk (by intros; trivial)
      |>.and (.optional_all strict_int64 finishedAt))
    (by decide)

end Timestamps

namespace ExecutionState

structure Canonical (s : ExecutionState) : Prop where
  inputs : ∀ t ∈ s.inputs, t.Canonical
  outputs : ∀ t ∈ s.outputs, t.Canonical
  cost : ∀ x ∈ s.cost, x.isFinite = true

theorem strict_decode : Strict decode toJson Canonical :=
  .record
    ((Fields.Lawful.required_all ExecutionStatus.strict_decode status).map mk
        (by intros; constructor <;> assumption)
      |>.and (.optional_all strict_string traceId)
      |>.and (.optional strict_values inputs fun _ h => h.inputs)
      |>.and (.optional strict_values outputs fun _ h => h.outputs)
      |>.and (.optional strict_real cost fun _ h => h.cost)
      |>.and (.optional_all strict_string error)
      |>.and (.optional_all Timestamps.strict_decode timestamps))
    (by decide)

end ExecutionState

namespace WorkflowState

def Canonical (s : WorkflowState) : Prop := ∀ t ∈ s.result, t.Canonical

theorem strict_decode : Strict decode toJson Canonical :=
  .record
    ((Fields.Lawful.required_all ExecutionStatus.strict_decode status).map mk
        (by intros; assumption)
      |>.and (.optional_all strict_string traceId)
      |>.and (.optional_all strict_string currentNode)
      |>.and (.optional strict_values result fun _ h => h)
      |>.and (.optional_all strict_string error)
      |>.and (.optional_all Timestamps.strict_decode timestamps))
    (by decide)

end WorkflowState

namespace ExecuteRequest

def Canonical (r : ExecuteRequest) : Prop := r.workflow.Canonical

theorem strict_decode : Strict decode toJson Canonical :=
  .record
    ((Fields.Lawful.required_all strict_string traceId).map mk (by intros; assumption)
      |>.and (.required Workflow.strict_decode workflow fun _ h => h)
      |>.and (.required_all strict_string nodeId)
      |>.and (.withDefault_all strict_strings inputs))
    (by decide)

end ExecuteRequest

namespace StopRequest

theorem strict_decode : Strict decode toJson (fun _ => True) :=
  .record
    ((Fields.Lawful.required_all strict_string traceId).map mk (by intros; trivial)
      |>.and (.optional_all strict_string nodeId))
    (by decide)

end StopRequest

namespace Command

def Canonical : Command → Prop
  | .execute r => r.Canonical
  | _ => True

theorem strict_noPayload : Strict noPayload (fun _ => .obj []) (fun _ => True) :=
  have hnone : Fields.Lawful (fun _ : Unit => True) (.none ()) id (fun _ => []) (fun _ => True) :=
    .none trivial
  .record hnone (by decide)

theorem lawful_isAlive :
    ((Fields.withDefault () "payload" noPayload).map (fun _ => Command.isAlive)).Lawful
      (fun _ : Unit => True) (fun _ => isAlive) (fun _ => [("payload", some (.obj []))])
      Canonical :=
  (Fields.Lawful.withDefault_all strict_noPayload id).map (fun _ => isAlive) (fun _ _ => trivial)

theorem lawful_execute :
    ((Fields.required "payload" ExecuteRequest.decode).map execute).Lawful ExecuteRequest.Canonical
      execute (fun r => [("payload", some r.toJson)]) Canonical :=
  (Fields.Lawful.required ExecuteRequest.strict_decode id fun _ h => h).map execute fun _ h => h

theorem lawful_stop :
    ((Fields.required "payload" StopRequest.decode).map stop).Lawful (fun _ => True) stop
      (fun r => [("payload", some r.toJson)]) Canonical :=
  (Fields.Lawful.required_all StopRequest.strict_decode id).map stop fun _ _ => trivial

theorem yields_content (t : Tag) : Yields (content t) Canonical := by
  cases t with
  | isAlive => exact lawful_isAlive.yields_record _
  | execute => exact lawful_execute.yields_record _
  | stop => exact lawful_stop.yields_record _

theorem content_shows (e : Command) (he : e.Canonical) (o : Origin) (j : Json)
    (hj : j.Shows [("payload", some e.payload)]) :
    content e.tag o (Doc.ofJson j) = .ok e := by
  cases e with
  | isAlive => exact lawful_isAlive.record_shows (x := ()) _ trivial hj o
  | execute r => exact lawful_execute.record_shows _ he hj o
  | stop r => exact lawful_stop.record_shows _ trivial hj o

theorem payload_proper (e : Command) (he : e.Canonical) : e.payload.normalize.Proper := by
  cases e with
  | isAlive => exact strict_noPayload.writes () trivial
  | execute r => exact ExecuteRequest.strict_decode.writes r he
  | stop r => exact StopRequest.strict_decode.writes r trivial

theorem strict_decode : Strict decode toJson Canonical :=
  .union Tag.ofName?_name yields_content content_shows
    fun e he _ hv => Option.some.inj hv ▸ payload_proper e he

end Command

namespace Event

def Canonical : Event → Prop
  | .componentState _ s => s.Canonical
  | .workflowState s => s.Canonical
  | _ => True

structure CanonicalAs (t : Tag) (e : Event) : Prop where
  canonical : e.Canonical
  tagged : e.tag = t

def payloadJson (e : Event) : Json := e.payload?.getD .null

theorem strict_componentPayload :
    Strict componentPayload payloadJson (CanonicalAs .componentState) :=
  have hfields : ((Fields.required "component_id" Decode.string).map componentState
      |>.and (.required "execution_state" ExecutionState.decode)).Lawful
      (fun p : String × ExecutionState => p.2.Canonical) (fun p => componentState p.1 p.2)
      (fun p => [("component_id", some (.str p.1)), ("execution_state", some p.2.toJson)])
      (CanonicalAs .componentState) :=
    (Fields.Lawful.required_all strict_string Prod.fst).map componentState
        (fun _ _ _ h => ⟨h, rfl⟩)
      |>.and (.required ExecutionState.strict_decode Prod.snd fun _ h => h)
  .record_of hfields (by decide) fun e he => by
    cases e with
    | componentState n s => exact ⟨(n, s), he.canonical, rfl, rfl⟩
    | _ => exact nomatch he.tagged

theorem strict_workflowPayload :
    Strict workflowPayload payloadJson (CanonicalAs .workflowState) :=
  have hfields : ((Fields.required "execution_state" WorkflowState.decode).map
      workflowState).Lawful WorkflowState.Canonical workflowState
      (fun s => [("execution_state", some s.toJson)]) (CanonicalAs .workflowState) :=
    (Fields.Lawful.required WorkflowState.strict_decode id fun _ h => h).map workflowState
      fun _ h => ⟨h, rfl⟩
  .record_of hfields (by decide) fun e he => by
    cases e with
    | workflowState s => exact ⟨s, he.canonical, rfl, rfl⟩
    | _ => exact nomatch he.tagged

theorem lawful_payload {f : Decoder Event} {t : Tag}
    (h : Strict f payloadJson (CanonicalAs t)) :
    (Fields.required "payload" f).Lawful (CanonicalAs t) id
      (fun e => [("payload", some e.payloadJson)]) (CanonicalAs t) :=
  .required h id fun _ he => he

theorem strict_messagePayload :
    Strict messagePayload (fun m => Json.record [("message", some (.str m))]) (fun _ => True) :=
  .record (.required_all strict_string id) (by decide)

theorem lawful_message (f : String → Event) (hf : ∀ m, (f m).Canonical) :
    ((Fields.required "payload" messagePayload).map f).Lawful (fun _ => True) f
      (fun m => [("payload", some (Json.record [("message", some (.str m))]))]) Canonical :=
  (Fields.Lawful.required_all strict_messagePayload id).map f fun m _ => hf m

theorem yields_content (t : Tag) : Yields (content t) Canonical := by
  have hnoContent (e : Event) (he : e.Canonical) :
      Yields (fun o d => (noContent o d).map (fun _ => e)) Canonical := by
    intro o j x _ hx
    obtain ⟨_, _, rfl⟩ := map_eq_ok.mp hx
    exact he
  cases t with
  | alive => exact hnoContent .alive trivial
  | componentState =>
    exact ((lawful_payload strict_componentPayload).yields_record _).imp fun _ h => h.canonical
  | workflowState =>
    exact ((lawful_payload strict_workflowPayload).yields_record _).imp fun _ h => h.canonical
  | debug => exact (lawful_message debug fun _ => trivial).yields_record _
  | error => exact (lawful_message error fun _ => trivial).yields_record _
  | done => exact hnoContent .done trivial

theorem content_shows (e : Event) (he : e.Canonical) (o : Origin) (j : Json)
    (hj : j.Shows [("payload", e.payload?)]) : content e.tag o (Doc.ofJson j) = .ok e := by
  have hobject : ∃ ms, j = .obj ms := hj.imp fun _ h => h.1
  cases e with
  | alive =>
    obtain ⟨ms, rfl⟩ := hobject
    rfl
  | componentState n s =>
    exact (lawful_payload strict_componentPayload).record_shows _ ⟨he, rfl⟩ hj o
  | workflowState s =>
    exact (lawful_payload strict_workflowPayload).record_shows _ ⟨he, rfl⟩ hj o
  | debug m => exact (lawful_message debug fun _ => trivial).record_shows _ trivial hj o
  | error m => exact (lawful_message error fun _ => trivial).record_shows _ trivial hj o
  | done =>
    obtain ⟨ms, rfl⟩ := hobject
    rfl

theorem payload_proper (e : Event) (he : e.Canonical) :
    ∀ v ∈ e.payload?, v.normalize.Proper := by
  intro v hv
  cases e with
  | alive => exact nomatch hv
  | componentState n s =>
    exact Option.some.inj hv ▸ strict_componentPayload.writes (componentState n s) ⟨he, rfl⟩
  | workflowState s =>
    exact Option.some.inj hv ▸ strict_workflowPayload.writes (workflowState s) ⟨he, rfl⟩
  | debug m => exact Option.some.inj hv ▸ strict_messagePayload.writes m trivial
  | error m => exact Option.some.inj hv ▸ strict_messagePayload.writes m trivial
  | done => exact nomatch hv

theorem strict_decode : Strict decode toJson Canonical :=
  .union Tag.ofName?_name yields_content content_shows payload_proper

end Event

end NodeRun
