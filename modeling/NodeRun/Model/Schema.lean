import NodeRun.Workflow.Node

namespace NodeRun

structure SchemaSlot where
  name : String
  type : FieldType
  direction : Direction
  desc : Option String
  optional : Bool
  deriving DecidableEq, Repr

namespace SchemaSlot

def ofField (d : Direction) (f : Field) : SchemaSlot :=
  ⟨f.identifier, f.type, d, f.desc, f.optional.getD false⟩

def decode : Decoder SchemaSlot :=
  Decode.record "struct Slot"
    ((Fields.required "name" Decode.string).map SchemaSlot.mk
      |>.and (.required "type" FieldType.decode)
      |>.and (.required "direction" Direction.decode)
      |>.and (.optional "desc" Decode.string)
      |>.and (.withDefault false "optional" Decode.bool))

def toJson (s : SchemaSlot) : Json :=
  Json.record
    [("name", some (.str s.name)),
     ("type", some s.type.toJson),
     ("direction", some s.direction.toJson),
     ("desc", s.desc.map .str),
     ("optional", some (.bool s.optional))]

end SchemaSlot

structure Schema where
  name : String
  instructions : Option String
  inputs : List SchemaSlot
  outputs : List SchemaSlot
  deriving DecidableEq, Repr

namespace Schema

def decode : Decoder Schema :=
  Decode.record "struct SignatureSchema"
    ((Fields.required "name" Decode.string).map Schema.mk
      |>.and (.optional "instructions" Decode.string)
      |>.and (.required "inputs" (Decode.list SchemaSlot.decode))
      |>.and (.required "outputs" (Decode.list SchemaSlot.decode)))

def toJson (s : Schema) : Json :=
  Json.record
    [("name", some (.str s.name)),
     ("instructions", s.instructions.map .str),
     ("inputs", some (Json.list SchemaSlot.toJson s.inputs)),
     ("outputs", some (Json.list SchemaSlot.toJson s.outputs))]

def anonymous : String := "AnonymousSignature"

def nameOf (s : Signature) : String :=
  (s.component.name.filter (fun n => n ≠ "")).getD anonymous

def slotsOf (name : String) (d : Direction) (fs : List Field) : Except Error (List SchemaSlot) :=
  match repeated? (fs.map Field.identifier) with
  | some i => .error (.configuration (.duplicateSlot name d i))
  | none => .ok (fs.map (SchemaSlot.ofField d))

def ofSignature (s : Signature) : Except Error Schema := do
  let name := nameOf s
  let inputs ← slotsOf name .input s.component.inputFields
  let outputs ← slotsOf name .output s.component.outputFields
  match outputs.find? (fun o => inputs.any (fun i => i.name = o.name)) with
  | some o => .error (.configuration (.sharedSlot name o.name))
  | none => .ok ⟨name, s.prompt.filter (fun p => p ≠ ""), inputs, outputs⟩

def slot? (s : Schema) (name : String) : Option SchemaSlot :=
  (s.inputs ++ s.outputs).find? (fun x => x.name = name)

end Schema

end NodeRun
