import NodeRun.Coercion

namespace NodeRun

structure EvaluationRequest where
  evaluator : String
  name : String
  settings : Settings
  data : Table Json
  deriving DecidableEq, Repr

namespace EvaluationRequest

def decode : Decoder EvaluationRequest :=
  Decode.record "struct EvaluationRequest"
    ((Fields.required "evaluator" Decode.string).map EvaluationRequest.mk
      |>.and (.required "name" Decode.string)
      |>.and (.required "settings" (Decode.table Decode.any))
      |>.and (.required "data" (Decode.table Decode.any)))

def toJson (r : EvaluationRequest) : Json :=
  Json.record
    [("evaluator", some (.str r.evaluator)),
     ("name", some (.str r.name)),
     ("settings", some (Json.ofTable r.settings)),
     ("data", some (Json.ofTable r.data))]

end EvaluationRequest

inductive EvaluationStatus where
  | processed
  | skipped
  | error
  deriving DecidableEq, Repr

namespace EvaluationStatus

def name : EvaluationStatus → String
  | processed => "processed"
  | skipped => "skipped"
  | error => "error"

def all : List EvaluationStatus := [processed, skipped, error]

def ofName? (s : String) : Option EvaluationStatus := all.find? (fun x => x.name = s)

theorem ofName?_name (x : EvaluationStatus) : ofName? x.name = some x := by cases x <;> decide

def decode : Decoder EvaluationStatus := Decode.variant (all.map name) ofName?

def toJson (x : EvaluationStatus) : Json := .str x.name

end EvaluationStatus

structure Money where
  currency : String
  amount : Real64
  deriving DecidableEq, Repr

namespace Money

def decode : Decoder Money :=
  Decode.record "struct Money"
    ((Fields.required "currency" Decode.string).map Money.mk
      |>.and (.required "amount" Decode.real))

def toJson (m : Money) : Json :=
  Json.record [("currency", some (.str m.currency)), ("amount", some (Json.ofReal m.amount))]

end Money

structure EvaluationResult where
  status : EvaluationStatus
  score : Option Real64
  passed : Option Bool
  label : Option String
  details : Option String
  cost : Option Money
  deriving DecidableEq, Repr

namespace EvaluationResult

def decode : Decoder EvaluationResult :=
  Decode.record "struct EvaluationResult"
    ((Fields.required "status" EvaluationStatus.decode).map EvaluationResult.mk
      |>.and (.optional "score" Decode.real)
      |>.and (.optional "passed" Decode.bool)
      |>.and (.optional "label" Decode.string)
      |>.and (.optional "details" Decode.string)
      |>.and (.optional "cost" Money.decode))

def toJson (r : EvaluationResult) : Json :=
  Json.record
    [("status", some r.status.toJson),
     ("score", r.score.map Json.ofReal),
     ("passed", r.passed.map .bool),
     ("label", r.label.map .str),
     ("details", r.details.map .str),
     ("cost", r.cost.map Money.toJson)]

def outputs (r : EvaluationResult) : Table Json :=
  Table.ofList (Json.present
    [("status", some r.status.toJson),
     ("score", r.score.map Json.ofReal),
     ("passed", r.passed.map .bool),
     ("label", r.label.map .str),
     ("details", r.details.map .str)])

end EvaluationResult

end NodeRun
