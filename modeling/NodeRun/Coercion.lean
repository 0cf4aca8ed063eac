import NodeRun.Distinct
import NodeRun.Scalar

namespace NodeRun

def coerceRaw (identifier : String) (type : FieldType) (raw : Option String) :
    Except Error (Option FieldValue) :=
  match raw.filter (fun s => s ≠ "") with
  | none => .ok none
  | some s =>
    match Scalar.read type s with
    | .ok v => .ok (some v)
    | .error r => .error (.parse identifier type s r)

namespace Field

def coerce (f : Field) : Except Error (Option FieldValue) :=
  coerceRaw f.identifier f.type f.defaultValue

end Field

abbrev Settings := Table Json

namespace Settings

def str? (s : Settings) (k : String) : Option String :=
  match s.get? k with
  | some (.str v) => some v
  | _ => none

def count? (s : Settings) (k : String) : Option Nat :=
  match s.get? k with
  | some (.int n) => if 0 ≤ n then some n.toNat else none
  | _ => none

def bool? (s : Settings) (k : String) : Option Bool :=
  match s.get? k with
  | some (.bool b) => some b
  | _ => none

end Settings

namespace Field

def parseAll (fs : List Field) : Table String :=
  fs.foldl (fun t f =>
    match f.rawDefault with
    | some s => t.insert f.identifier s
    | none => t) ∅

def put (t : Settings) (identifier : String) (v : Option FieldValue) : Settings :=
  match v with
  | some v => t.insert identifier v.toJson
  | none => t

def coerceOnto (t : Settings) : List Field → Except Error Settings
  | [] => .ok t
  | f :: fs => do
    let v ← f.coerce
    coerceOnto (put t f.identifier v) fs

def coerceAll (fs : List Field) : Except Error Settings :=
  match repeated? (fs.map identifier) with
  | some i => .error (.configuration (.duplicateParameter i))
  | none => coerceOnto ∅ fs

def autoparseOnto (inputs : Table String) (t : Settings) : List Field → Except Error Settings
  | [] => .ok t
  | f :: fs => do
    let v ← coerceRaw f.identifier f.type (inputs.get? f.identifier)
    autoparseOnto inputs (put t f.identifier v) fs

def autoparse (fs : List Field) (inputs : Table String) : Except Error Settings :=
  autoparseOnto inputs ∅ fs

end Field

end NodeRun
