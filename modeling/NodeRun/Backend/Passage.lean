import NodeRun.Json.Decode
import NodeRun.Json.Encode

namespace NodeRun

structure Passage where
  content : String
  metadata : Option Json
  deriving DecidableEq, Repr

namespace Passage

def ofText (content : String) : Passage := ⟨content, none⟩

def decode : Decoder Passage :=
  Decode.record "struct Passage"
    ((Fields.required "content" Decode.string).map Passage.mk
      |>.and (.optional "metadata" Decode.any))

def toJson (p : Passage) : Json :=
  Json.record [("content", some (.str p.content)), ("metadata", p.metadata)]

end Passage

end NodeRun
