import NodeRun.Json.Basic

/-!
JSON as it is met when it is read from front to back: members in the order of the text, repeated
names included, and a fault at the place where it is found. Some faults stop every reader
(`broken`, the tail of a list or an object), some only a reader that wants the value and not one
that skips it (`guarded`, the fault of a label).
-/

namespace NodeRun

inductive Flaw where
  | endInValue
  | endInWord
  | endInNumber
  | endInObject
  | endInList
  | endInString
  | noValue
  | noIdent
  | noColon
  | noObjectComma
  | noListComma
  | trailingComma
  | trailingCharacters
  | keyNotString
  | invalidNumber
  | numberOutOfRange
  | invalidEscape
  | surrogateCut
  | surrogateAlone
  | controlCharacter
  | tooDeep
  deriving DecidableEq, Repr

namespace Flaw

def message : Flaw → String
  | endInValue => "EOF while parsing a value"
  | endInWord => "EOF while parsing a value"
  | endInNumber => "EOF while parsing a value"
  | endInObject => "EOF while parsing an object"
  | endInList => "EOF while parsing a list"
  | endInString => "EOF while parsing a string"
  | noValue => "expected value"
  | noIdent => "expected ident"
  | noColon => "expected `:`"
  | noObjectComma => "expected `,` or `\x7d`"
  | noListComma => "expected `,` or `]`"
  | trailingComma => "trailing comma"
  | trailingCharacters => "trailing characters"
  | keyNotString => "key must be a string"
  | invalidNumber => "invalid number"
  | numberOutOfRange => "number out of range"
  | invalidEscape => "invalid escape"
  | surrogateCut => "unexpected end of hex escape"
  | surrogateAlone => "lone leading surrogate in hex escape"
  | controlCharacter => "control character (\\u0000-\\u001F) found while parsing a string"
  | tooDeep => "recursion limit exceeded"

end Flaw

structure Fault where
  flaw : Flaw
  left : Nat
  deriving DecidableEq, Repr

namespace Fault

def message (f : Fault) : String := f.flaw.message

def showing (f : Fault) (flaw : Flaw) : Fault := { f with flaw := flaw }

end Fault

structure Label where
  name : String
  fault : Option Fault
  deriving DecidableEq, Repr

inductive Doc where
  | null
  | bool (value : Bool)
  | int (value : Int)
  | real (value : Real64)
  | str (value : String)
  | arr (items : List Doc) (tail : Option Fault)
  | obj (members : List (Label × Doc)) (tail : Option Fault)
  | broken (fault : Fault)
  | guarded (fault : Fault) (inner : Doc)
  deriving Repr, Inhabited

namespace Doc

mutual

def ofJson : Json → Doc
  | .null => .null
  | .bool b => .bool b
  | .int n => .int n
  | .real x => .real x
  | .str s => .str s
  | .arr items => .arr (ofItems items) none
  | .obj members => .obj (ofMembers members) none

def ofItems : List Json → List Doc
  | [] => []
  | j :: js => ofJson j :: ofItems js

def ofMembers : List (String × Json) → List (Label × Doc)
  | [] => []
  | (k, j) :: js => (⟨k, none⟩, ofJson j) :: ofMembers js

end

mutual

def fault? : Doc → Option Fault
  | .arr items tail => itemsFault? items <|> tail
  | .obj members tail => membersFault? members <|> tail
  | .broken f => some f
  | .guarded f _ => some f
  | _ => none

def itemsFault? : List Doc → Option Fault
  | [] => none
  | d :: ds => fault? d <|> itemsFault? ds

def membersFault? : List (Label × Doc) → Option Fault
  | [] => none
  | (l, d) :: ds => l.fault <|> fault? d <|> membersFault? ds

end

mutual

/-- The first fault that stops even a reader who skips the value. Skipping does not tell a trailing
comma from a missing value or name. -/
def skipFault? : Doc → Option Fault
  | .arr items tail =>
    itemsSkipFault? items <|> tail.map (fun f =>
      if f.flaw = .trailingComma then f.showing .noValue else f)
  | .obj members tail =>
    membersSkipFault? members <|> tail.map (fun f =>
      if f.flaw = .trailingComma then f.showing .keyNotString
      else if f.flaw = .endInValue then f.showing .endInObject else f)
  | .broken f => some (if f.flaw = .endInNumber then f.showing .invalidNumber else f)
  | .guarded _ d => skipFault? d
  | _ => none

def itemsSkipFault? : List Doc → Option Fault
  | [] => none
  | d :: ds => skipFault? d <|> itemsSkipFault? ds

def membersSkipFault? : List (Label × Doc) → Option Fault
  | [] => none
  | (_, d) :: ds => skipFault? d <|> membersSkipFault? ds

end

mutual

def value : Doc → Json
  | .null => .null
  | .bool b => .bool b
  | .int n => .int n
  | .real x => .real x
  | .str s => .str s
  | .arr items _ => .arr (itemValues items)
  | .obj members _ => .obj (Entries.collect (memberValues members))
  | .broken _ => .null
  | .guarded _ d => value d

def itemValues : List Doc → List Json
  | [] => []
  | d :: ds => value d :: itemValues ds

def memberValues : List (Label × Doc) → List (String × Json)
  | [] => []
  | (l, d) :: ds => (l.name, value d) :: memberValues ds

end

mutual

theorem fault?_ofJson : ∀ j : Json, (ofJson j).fault? = none
  | .null => rfl
  | .bool _ => rfl
  | .int _ => rfl
  | .real _ => rfl
  | .str _ => rfl
  | .arr items => by simp [ofJson, fault?, itemsFault?_ofItems items]
  | .obj members => by simp [ofJson, fault?, membersFault?_ofMembers members]

theorem itemsFault?_ofItems : ∀ js : List Json, itemsFault? (ofItems js) = none
  | [] => rfl
  | j :: js => by simp [ofItems, itemsFault?, fault?_ofJson j, itemsFault?_ofItems js]

theorem membersFault?_ofMembers :
    ∀ js : List (String × Json), membersFault? (ofMembers js) = none
  | [] => rfl
  | (k, j) :: js => by
    simp [ofMembers, membersFault?, fault?_ofJson j, membersFault?_ofMembers js]

end

mutual

theorem value_ofJson : ∀ j : Json, (ofJson j).value = j.normalize
  | .null => rfl
  | .bool _ => rfl
  | .int _ => rfl
  | .real _ => rfl
  | .str _ => rfl
  | .arr items => by simp [ofJson, value, Json.normalize, itemValues_ofItems items]
  | .obj members => by simp [ofJson, value, Json.normalize, memberValues_ofMembers members]

theorem itemValues_ofItems : ∀ js : List Json, itemValues (ofItems js) = Json.normalizeItems js
  | [] => rfl
  | j :: js => by
    simp [ofItems, itemValues, Json.normalizeItems, value_ofJson j, itemValues_ofItems js]

theorem memberValues_ofMembers :
    ∀ js : List (String × Json), memberValues (ofMembers js) = Json.normalizeMembers js
  | [] => rfl
  | (k, j) :: js => by
    simp [ofMembers, memberValues, Json.normalizeMembers, value_ofJson j,
      memberValues_ofMembers js]

end

end Doc

end NodeRun
