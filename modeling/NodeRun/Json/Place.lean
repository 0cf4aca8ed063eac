import NodeRun.Json.Reader
import NodeRun.Real64.Notation

namespace NodeRun.Json

def digitsOff (cs : List Char) : List Char × List Char :=
  (cs.takeWhile Char.isDigit, cs.dropWhile Char.isDigit)

def dropStart (start cs : List Char) : Option (List Char) :=
  if start.isPrefixOf cs then some (cs.drop start.length) else none

structure Place where
  line : Nat
  column : Nat
  deriving DecidableEq, Repr

namespace Place

def text (p : Place) : String :=
  "line " ++ String.ofList (digitText p.line) ++ " column " ++ String.ofList (digitText p.column)

def forward (p : Place) : Nat → List Char → Place
  | _, [] => p
  | n, c :: cs =>
    if n < c.utf8Size then { p with column := p.column + n }
    else if c = '\n' then forward ⟨p.line + 1, 0⟩ (n - c.utf8Size) cs
    else forward { p with column := p.column + c.utf8Size } (n - c.utf8Size) cs

def ofFault (s : String) (f : Fault) : Place := forward ⟨1, 0⟩ (s.utf8ByteSize - f.left) s.toList

def cut (s : String) : String :=
  let cs := s.toList.reverse
  let found := do
    let (column, cs) := digitsOff cs
    if column.isEmpty then none
    let cs ← dropStart " column ".toList.reverse cs
    let (line, cs) := digitsOff cs
    if line.isEmpty then none
    dropStart " at line ".toList.reverse cs
  match found with
  | some cs => String.ofList cs.reverse
  | none => s

end Place

end NodeRun.Json
