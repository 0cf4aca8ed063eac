import NodeRun.Json.Encode
import NodeRun.Json.Printer

namespace NodeRun

structure Prediction where
  outputs : Table Json
  cost : Option Real64
  deriving DecidableEq, Repr

namespace Prediction

def ofOutputs (outputs : Table Json) : Prediction := ⟨outputs, none⟩

def withCost (cost : Real64) (p : Prediction) : Prediction := { p with cost := some cost }

def toJson (p : Prediction) : Json :=
  Json.record
    [("outputs", some (Json.ofTable p.outputs)),
     ("cost", some (p.cost.elim .null Json.ofReal))]

def shownCost : Option Real64 → String
  | some x => "Some(" ++ x.render RealStyle.shown ++ ")"
  | none => "None"

def shown (p : Prediction) : String :=
  "Prediction \x7b outputs: " ++ Json.shownTable p.outputs ++ ", cost: " ++ shownCost p.cost ++
    " \x7d"

end Prediction

end NodeRun
