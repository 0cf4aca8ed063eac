import NodeRun.Json.Decode
import NodeRun.Json.Encode

namespace NodeRun

structure Column where
  name : String
  type : String
  deriving DecidableEq, Repr

namespace Column

def decode : Decoder Column :=
  Decode.record "struct DatasetColumn"
    ((Fields.required "name" Decode.string).map Column.mk
      |>.and (.required "type" Decode.string))

def toJson (c : Column) : Json :=
  Json.record [("name", some (.str c.name)), ("type", some (.str c.type))]

end Column

structure InlineDataset where
  records : Table (List Json)
  columnTypes : Option (List Column)
  deriving DecidableEq, Repr

namespace InlineDataset

def decode : Decoder InlineDataset :=
  Decode.record "struct InlineDataset"
    ((Fields.required "records" (Decode.table (Decode.list Decode.any))).map InlineDataset.mk
      |>.and (.optional "columnTypes" (Decode.list Column.decode)))

def toJson (d : InlineDataset) : Json :=
  Json.record
    [("records", some (Json.ofTable (d.records.map .arr))),
     ("columnTypes", d.columnTypes.map (Json.list Column.toJson))]

def rows (d : InlineDataset) : Nat := (d.records.values.map List.length).foldl max 0

def row (d : InlineDataset) (i : Nat) : Table Json := d.records.filterMap (fun _ vs => vs[i]?)

def examples (d : InlineDataset) : List (Table Json) := (List.range d.rows).map d.row

end InlineDataset

structure Dataset where
  id : Option String
  name : Option String
  inline : Option InlineDataset
  deriving DecidableEq, Repr

namespace Dataset

def decode : Decoder Dataset :=
  Decode.record "struct Dataset"
    ((Fields.optional "id" Decode.string).map Dataset.mk
      |>.and (.optional "name" Decode.string)
      |>.and (.optional "inline" InlineDataset.decode))

def toJson (d : Dataset) : Json :=
  Json.record
    [("id", d.id.map .str), ("name", d.name.map .str),
     ("inline", d.inline.map InlineDataset.toJson)]

end Dataset

end NodeRun
