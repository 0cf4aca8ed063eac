import NodeRun.Json.Decode
import NodeRun.Json.Encode

namespace NodeRun

inductive FieldType where
  | int
  | float
  | bool
  | str
  | image
  | listStr
  | listFloat
  | listInt
  | listBool
  | dict
  | llm
  | dataset
  deriving DecidableEq, Repr

namespace FieldType

def name : FieldType → String
  | int => "int"
  | float => "float"
  | bool => "bool"
  | str => "str"
  | image => "image"
  | listStr => "list[str]"
  | listFloat => "list[float]"
  | listInt => "list[int]"
  | listBool => "list[bool]"
  | dict => "dict"
  | llm => "llm"
  | dataset => "dataset"

def all : List FieldType :=
  [int, float, bool, str, image, listStr, listFloat, listInt, listBool, dict, llm, dataset]

def ofName? (s : String) : Option FieldType := all.find? (fun t => t.name = s)

theorem ofName?_name (t : FieldType) : ofName? t.name = some t := by cases t <;> decide

theorem name_of_ofName? {s : String} {t : FieldType} (h : ofName? s = some t) : t.name = s := by
  simpa using List.find?_some h

def decode : Decoder FieldType := Decode.variant (all.map name) ofName?

def toJson (t : FieldType) : Json := .str t.name

end FieldType

inductive Direction where
  | input
  | output
  deriving DecidableEq, Repr

namespace Direction

def name : Direction → String
  | input => "input"
  | output => "output"

def all : List Direction := [input, output]

def ofName? (s : String) : Option Direction := all.find? (fun d => d.name = s)

theorem ofName?_name (d : Direction) : ofName? d.name = some d := by cases d <;> decide

theorem name_of_ofName? {s : String} {d : Direction} (h : ofName? s = some d) : d.name = s := by
  simpa using List.find?_some h

def decode : Decoder Direction := Decode.variant (all.map name) ofName?

def toJson (d : Direction) : Json := .str d.name

end Direction

/-- A typed scalar. Text also stands for values of the types that are no scalars. -/
inductive FieldValue where
  | bool (value : Bool)
  | int (value : Int64)
  | float (value : Real64)
  | str (value : String)
  deriving DecidableEq, Repr

namespace FieldValue

def kind : FieldValue → String
  | bool _ => "bool"
  | int _ => "int"
  | float _ => "float"
  | str _ => "str"

def toJson : FieldValue → Json
  | bool b => .bool b
  | int n => .int n.toInt
  | float x => Json.ofReal x
  | str s => .str s

/-- The kind is not written, so the first that fits is taken: an integer beyond 64 bits is a
floating point number. -/
def ofJson? : Json → Option FieldValue
  | .bool b => some (.bool b)
  | .int n =>
    if -0x8000000000000000 ≤ n ∧ n < 0x8000000000000000 then some (.int (Int64.ofInt n))
    else some (.float (Real64.ofInt n))
  | .real x => some (.float x)
  | .str s => some (.str s)
  | _ => none

def decode : Decoder FieldValue := fun o d => do
  match ofJson? (← Decode.any o d) with
  | some v => pure v
  | none => .error (.noVariant "FieldValue")

end FieldValue

structure Field where
  identifier : String
  type : FieldType
  optional : Option Bool
  desc : Option String
  defaultValue : Option String
  value : Option Json
  deriving DecidableEq, Repr

namespace Field

def named (identifier : String) (type : FieldType) : Field :=
  ⟨identifier, type, none, none, none, none⟩

def decode : Decoder Field :=
  Decode.record "struct Field"
    ((Fields.required "identifier" Decode.string).map Field.mk
      |>.and (.required "type" FieldType.decode)
      |>.and (.optional "optional" Decode.bool)
      |>.and (.optional "desc" Decode.string)
      |>.and (.optional "defaultValue" Decode.string)
      |>.and (.optional "value" Decode.any))

def toJson (f : Field) : Json :=
  Json.record
    [("identifier", some (.str f.identifier)),
     ("type", some f.type.toJson),
     ("optional", f.optional.map .bool),
     ("desc", f.desc.map .str),
     ("defaultValue", f.defaultValue.map .str),
     ("value", f.value)]

def rawDefault (f : Field) : Option String := f.defaultValue.filter (fun s => s ≠ "")

end Field

end NodeRun
