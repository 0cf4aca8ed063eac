import NodeRun.Model.Config
import NodeRun.Workflow.Dataset

namespace NodeRun

structure Component where
  name : Option String
  description : Option String
  inputs : Option (List Field)
  outputs : Option (List Field)
  parameters : Option (List Field)
  deriving DecidableEq, Repr

namespace Component

def unset : Component := ⟨none, none, none, none, none⟩

def named (name : String) : Component := { unset with name := some name }

def fields : Fields Component :=
  (Fields.optional "name" Decode.string).map Component.mk
    |>.and (.optional "description" Decode.string)
    |>.and (.optional "inputs" (Decode.list Field.decode))
    |>.and (.optional "outputs" (Decode.list Field.decode))
    |>.and (.optional "parameters" (Decode.list Field.decode))

def decode : Decoder Component := Decode.record "struct Component" fields

def members (c : Component) : List (String × Option Json) :=
  [("name", c.name.map .str),
   ("description", c.description.map .str),
   ("inputs", c.inputs.map (Json.list Field.toJson)),
   ("outputs", c.outputs.map (Json.list Field.toJson)),
   ("parameters", c.parameters.map (Json.list Field.toJson))]

def toJson (c : Component) : Json := Json.record c.members

def inputFields (c : Component) : List Field := c.inputs.getD []

def outputFields (c : Component) : List Field := c.outputs.getD []

def parameterFields (c : Component) : List Field := c.parameters.getD []

end Component

structure Signature where
  component : Component
  prompt : Option String
  llm : Option ModelChoice
  demonstrations : Option Dataset
  deriving DecidableEq, Repr

namespace Signature

def own : Fields (Component → Signature) :=
  (Fields.optional "prompt" Decode.string).map (fun p l d c => Signature.mk c p l d)
    |>.and (.optional "llm" ModelChoice.decode)
    |>.and (.optional "demonstrations" Dataset.decode)

def decode : Decoder Signature := fun o d =>
  (Decode.flattened "struct Signature" own Component.fields o d).map (fun p => p.1 p.2)

def toJson (s : Signature) : Json :=
  Json.record (s.component.members ++
    [("prompt", s.prompt.map .str),
     ("llm", s.llm.map ModelChoice.toJson),
     ("demonstrations", s.demonstrations.map Dataset.toJson)])

end Signature

structure Retriever where
  component : Component
  cls : Option String
  deriving DecidableEq, Repr

namespace Retriever

def own : Fields (Component → Retriever) :=
  (Fields.optional "cls" Decode.string).map (fun k c => Retriever.mk c k)

def decode : Decoder Retriever := fun o d =>
  (Decode.flattened "struct Retriever" own Component.fields o d).map (fun p => p.1 p.2)

def toJson (r : Retriever) : Json :=
  Json.record (r.component.members ++ [("cls", r.cls.map .str)])

end Retriever

structure Evaluator where
  component : Component
  cls : Option String
  evaluator : Option String
  deriving DecidableEq, Repr

namespace Evaluator

def own : Fields (Component → Evaluator) :=
  (Fields.optional "cls" Decode.string).map (fun k e c => Evaluator.mk c k e)
    |>.and (.optional "evaluator" Decode.string)

def decode : Decoder Evaluator := fun o d =>
  (Decode.flattened "struct Evaluator" own Component.fields o d).map (fun p => p.1 p.2)

def toJson (e : Evaluator) : Json :=
  Json.record (e.component.members ++
    [("cls", e.cls.map .str), ("evaluator", e.evaluator.map .str)])

end Evaluator

structure Terminal where
  component : Component
  deriving DecidableEq, Repr

namespace Terminal

def decode : Decoder Terminal := fun o d =>
  (Decode.flattened "struct End" (.none Terminal.mk) Component.fields o d).map (fun p => p.1 p.2)

def toJson (t : Terminal) : Json := t.component.toJson

end Terminal

inductive NodeKind where
  | signature (data : Signature)
  | retriever (data : Retriever)
  | evaluator (data : Evaluator)
  | terminal (data : Terminal)
  | unsupported (type : String) (data : Json)
  deriving DecidableEq, Repr

namespace NodeKind

def typeName : NodeKind → String
  | signature _ => "signature"
  | retriever _ => "retriever"
  | evaluator _ => "evaluator"
  | terminal _ => "end"
  | unsupported type _ => type

def component? : NodeKind → Option Component
  | signature s => some s.component
  | retriever r => some r.component
  | evaluator e => some e.component
  | terminal t => some t.component
  | unsupported _ _ => none

def compiled : List String := ["signature", "retriever", "evaluator", "end"]

def ofData (type : String) (data : Json) : Except DecodeError NodeKind :=
  if type = "signature" then (Decode.ofJson Signature.decode data).map signature
  else if type = "retriever" then (Decode.ofJson Retriever.decode data).map retriever
  else if type = "evaluator" then (Decode.ofJson Evaluator.decode data).map evaluator
  else if type = "end" then (Decode.ofJson Terminal.decode data).map terminal
  else .ok (unsupported type data)

def data : NodeKind → Json
  | signature s => s.toJson
  | retriever r => r.toJson
  | evaluator e => e.toJson
  | terminal t => t.toJson
  | unsupported _ d => d

end NodeKind

structure Node where
  id : String
  kind : NodeKind
  deriving DecidableEq, Repr

namespace Node

def raw : Fields (String × String × Json) :=
  (Fields.required "id" Decode.string).map (fun i t d => (i, t, d))
    |>.and (.required "type" Decode.string)
    |>.and (.withDefault .null "data" Decode.any)

def dataOrEmpty : Json → Json
  | .null => .obj []
  | d => d

def decode : Decoder Node := fun o d => do
  let (id, type, data) ← Decode.record "struct RawNode" raw o d
  let kind ← NodeKind.ofData type (dataOrEmpty data)
  pure ⟨id, kind⟩

def toJson (n : Node) : Json :=
  Json.record
    [("id", some (.str n.id)), ("type", some (.str n.kind.typeName)), ("data", some n.kind.data)]

def typeName (n : Node) : String := n.kind.typeName

def inputs (n : Node) : List Field := (n.kind.component?.bind Component.inputs).getD []

def name (n : Node) : Option String := n.kind.component?.bind Component.name

end Node

end NodeRun
