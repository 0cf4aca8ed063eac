import NodeRun.Json.Basic

namespace NodeRun.Json

def present (fs : List (String × Option Json)) : List (String × Json) :=
  fs.filterMap (fun e => e.2.map (fun j => (e.1, j)))

def record (fs : List (String × Option Json)) : Json := .obj (present fs)

def strs (t : Table String) : Json := ofTable (t.map .str)

def list {α : Type} (f : α → Json) (xs : List α) : Json := .arr (xs.map f)

end NodeRun.Json
