import NodeRun.Json.Printer
import NodeRun.Json.Reader

/-!
Decoders of documents. A record is decoded field by field, and of all that is wrong with it the
thing met first is the error: `Fields` keeps the place of every error and the least place wins.
A missing field is met after the last member, so it only counts when nothing else is wrong.
-/

namespace NodeRun

inductive Found where
  | null
  | bool (value : Bool)
  | int (value : Int)
  | real (value : Real64)
  | str (value : String)
  | sequence
  | map
  deriving DecidableEq, Repr

namespace Found

def text : Found → String
  | null => "null"
  | bool true => "boolean `true`"
  | bool false => "boolean `false`"
  | int n => "integer `" ++ String.ofList (intText n) ++ "`"
  | real x => "floating point `" ++ x.render RealStyle.json ++ "`"
  | str s => "string " ++ Text.quoted s
  | sequence => "sequence"
  | map => "map"

end Found

inductive DecodeError where
  | malformed (flaw : Flaw)
  | invalidType (found : Found) (expected : String)
  | invalidValue (found : Found) (expected : String)
  | invalidLength (length : Nat) (expected : String)
  | unknownVariant (name : String) (expected : List String)
  | missingField (name : String)
  | duplicateField (name : String)
  | noVariant (type : String)
  deriving DecidableEq, Repr

def elementsText (n : Nat) : String :=
  String.ofList (digitText n) ++ (if n = 1 then " element" else " elements")

def ticked (s : String) : String := "`" ++ s ++ "`"

def alternatives : List String → String
  | [] => "there are no variants"
  | [a] => "expected " ++ ticked a
  | [a, b] => "expected " ++ ticked a ++ " or " ++ ticked b
  | names => "expected one of " ++ String.intercalate ", " (names.map ticked)

namespace DecodeError

def message : DecodeError → String
  | malformed f => f.message
  | invalidType found expected => "invalid type: " ++ found.text ++ ", expected " ++ expected
  | invalidValue found expected => "invalid value: " ++ found.text ++ ", expected " ++ expected
  | invalidLength n expected =>
    "invalid length " ++ String.ofList (digitText n) ++ ", expected " ++ expected
  | unknownVariant name expected =>
    "unknown variant " ++ ticked name ++ ", " ++ alternatives expected
  | missingField name => "missing field " ++ ticked name
  | duplicateField name => "duplicate field " ++ ticked name
  | noVariant type => "data did not match any variant of untagged enum " ++ type

end DecodeError

/-- How a document reaches its decoder: as a finished value, as a value set aside until its type
was known, or straight from text. -/
inductive Origin where
  | value
  | buffered
  | text
  deriving DecidableEq, Repr

abbrev Decoder (α : Type) := Origin → Doc → Except DecodeError α

namespace Doc

def found : Doc → Except Fault Found
  | .null => .ok .null
  | .bool b => .ok (.bool b)
  | .int n => .ok (.int n)
  | .real x => .ok (.real x)
  | .str s => .ok (.str s)
  | .arr _ _ => .ok .sequence
  | .obj _ _ => .ok .map
  | .broken f => .error f
  | .guarded _ (.arr _ _) => .ok .sequence
  | .guarded _ (.obj _ _) => .ok .map
  | .guarded f _ => .error f

end Doc

namespace Decode

variable {α β : Type}

def mismatch (expected : String) (d : Doc) : Except DecodeError α :=
  match d.found with
  | .ok x => .error (.invalidType x expected)
  | .error f => .error (.malformed f.flaw)

def orFault (x : α) : Option Fault → Except DecodeError α
  | some f => .error (.malformed f.flaw)
  | none => .ok x

def any : Decoder Json := fun _ d => orFault d.value d.fault?

def string : Decoder String
  | _, .str s => .ok s
  | _, d => mismatch "a string" d

def bool : Decoder Bool
  | _, .bool b => .ok b
  | _, d => mismatch "a boolean" d

def real : Decoder Real64
  | _, .real x => .ok x
  | _, .int n => .ok (Real64.ofInt n)
  | _, d => mismatch "f64" d

def intBetween (low high : Int) (type : String) : Decoder Int
  | _, .int n => if low ≤ n ∧ n < high then .ok n else .error (.invalidValue (.int n) type)
  | _, d => mismatch type d

def int64 : Decoder Int64 := fun o d =>
  (intBetween (-0x8000000000000000) 0x8000000000000000 "i64" o d).map Int64.ofInt

def uint32 : Decoder UInt32 := fun o d =>
  (intBetween 0 0x100000000 "u32" o d).map (fun n => UInt32.ofNat n.toNat)

def uint64 (type : String) : Decoder UInt64 := fun o d =>
  (intBetween 0 0x10000000000000000 type o d).map (fun n => UInt64.ofNat n.toNat)

def option (f : Decoder α) : Decoder (Option α)
  | _, .null => .ok none
  | o, d => (f o d).map some

def items (f : Decoder α) (o : Origin) : List Doc → Except DecodeError (List α)
  | [] => .ok []
  | d :: ds => do
    let x ← f o d
    let xs ← items f o ds
    pure (x :: xs)

def list (f : Decoder α) : Decoder (List α)
  | o, .arr ds tail => do
    let xs ← items f o ds
    orFault xs tail
  | _, .guarded g (.arr _ _) => .error (.malformed g.flaw)
  | _, d => mismatch "a sequence" d

def members (f : Decoder α) (o : Origin) :
    List (Label × Doc) → Except DecodeError (List (String × α))
  | [] => .ok []
  | (l, d) :: ds => do
    let k ← orFault l.name l.fault
    let x ← f o d
    let xs ← members f o ds
    pure ((k, x) :: xs)

def table (f : Decoder α) : Decoder (Table α)
  | o, .obj ds tail => do
    let es ← members f o ds
    orFault (Table.ofList es) tail
  | _, .guarded g (.obj _ _) => .error (.malformed g.flaw)
  | _, d => mismatch "a map" d

/-- The payload of a variant without one: null, or an empty object if it was set aside. -/
def unit : Decoder Unit
  | _, .null => .ok ()
  | .buffered, .obj [] _ => .ok ()
  | _, d => mismatch "unit" d

def variantNamed (names : List String) (pick : String → Option α) (name : String) :
    Except DecodeError α :=
  match pick name with
  | some x => .ok x
  | none => .error (.unknownVariant name names)

def variant (names : List String) (pick : String → Option α) : Decoder α
  | _, .str s => variantNamed names pick s
  | _, .guarded g (.obj _ _) => .error (.malformed g.flaw)
  | .text, .obj [] tail => .error (.malformed ((tail.map Fault.flaw).getD .noValue))
  | .text, .obj ((l, d) :: rest) tail => do
    let k ← orFault l.name l.fault
    let x ← variantNamed names pick k
    unit .text d
    match rest, tail.map Fault.flaw with
    | [], none => pure x
    | [], some .endInObject => .error (.malformed .endInObject)
    | _, _ => .error (.malformed .noValue)
  | o, .obj [(l, d)] none => do
    let x ← variantNamed names pick l.name
    unit o d
    pure x
  | _, .obj _ _ => .error (.invalidValue .map "map with a single key")
  | .text, .guarded f (.str _) => .error (.malformed f.flaw)
  | .text, .guarded f (.broken _) => .error (.malformed f.flaw)
  | .text, .broken f =>
    .error (.malformed
      (if f.flaw ∈ [.noIdent, .endInWord, .invalidNumber, .endInNumber] then .noValue
        else f.flaw))
  | .text, _ => .error (.malformed .noValue)
  | _, d => mismatch "string or map" d

end Decode

inductive Slot where
  | absent
  | here (place : Nat) (doc : Doc)
  | again (place : Nat) (doc : Doc) (second : Nat)
  deriving Repr

structure Reading where
  origin : Origin
  slot : Nat → String → Slot
  lacking : Nat → String → Nat × DecodeError

abbrev Placed (α : Type) := Except (Nat × DecodeError) α

namespace Placed

variable {α β : Type}

def both (f : Placed (α → β)) (x : Placed α) : Placed β :=
  match f, x with
  | .ok f, .ok x => .ok (f x)
  | .ok _, .error e => .error e
  | .error e, .ok _ => .error e
  | .error e, .error e' => .error (if e'.1 < e.1 then e' else e)

end Placed

structure Fields (α : Type) where
  names : List String
  read : Reading → Nat → Placed α

namespace Fields

variable {α β : Type}

def map (f : α → β) (x : Fields α) : Fields β :=
  ⟨x.names, fun r i => (x.read r i).map f⟩

def and (f : Fields (α → β)) (x : Fields α) : Fields β :=
  ⟨f.names ++ x.names, fun r i => Placed.both (f.read r i) (x.read r (i + f.names.length))⟩

def none (x : α) : Fields α := ⟨[], fun _ _ => .ok x⟩

def field (default : Option α) (name : String) (f : Decoder α) : Fields α :=
  ⟨[name], fun r i =>
    match r.slot i name with
    | .absent =>
      match default with
      | some x => .ok x
      | Option.none => .error (r.lacking i name)
    | .here p d => (f r.origin d).mapError (fun e => (p, e))
    | .again p d q =>
      match f r.origin d with
      | .ok _ => .error (q, .duplicateField name)
      | .error e => .error (p, e)⟩

def required (name : String) (f : Decoder α) : Fields α := field Option.none name f

def withDefault (default : α) (name : String) (f : Decoder α) : Fields α :=
  field (some default) name f

def optional (name : String) (f : Decoder α) : Fields (Option α) :=
  field (some Option.none) name (Decode.option f)

end Fields

namespace Decode

variable {α β : Type}

def places (name : String) (ds : List (Label × Doc)) : List (Nat × Doc) :=
  ds.zipIdx.filterMap (fun e =>
    if e.1.1.name = name ∧ e.1.1.fault = Option.none then some (e.2, e.1.2) else Option.none)

def slotOf : List (Nat × Doc) → Slot
  | [] => .absent
  | [(p, d)] => .here p d
  | (p, d) :: (q, _) :: _ => .again p d q

def readingOfMembers (o : Origin) (ds : List (Label × Doc)) : Reading where
  origin := o
  slot := fun _ name => slotOf (places name ds)
  lacking := fun i name => (ds.length + 1 + i, .missingField name)

def readingOfItems (o : Origin) (expected : String) (ds : List Doc) : Reading where
  origin := o
  slot := fun i _ =>
    match ds[i]? with
    | some d => .here i d
    | Option.none => .absent
  lacking := fun i _ => (i, .invalidLength i expected)

/-- The first fault that lies in the record itself: in a label, in a value that belongs to no field
and is passed over by `skip`, or behind the last member. -/
def frameFault (names : List String) (skip : Doc → Option Fault) (ds : List (Label × Doc))
    (tail : Option Fault) : Option (Nat × DecodeError) :=
  ds.zipIdx.findSome? (fun e =>
      (e.1.1.fault <|> if e.1.1.name ∈ names then Option.none else skip e.1.2).map
        (fun f => (e.2, DecodeError.malformed f.flaw)))
    <|> tail.map (fun f => (ds.length, .malformed f.flaw))

def firstOf (frame : Option (Nat × DecodeError)) (x : Placed α) : Except DecodeError α :=
  match frame, x with
  | Option.none, .ok x => .ok x
  | Option.none, .error e => .error e.2
  | some e, .ok _ => .error e.2
  | some e, .error e' => .error (if e'.1 < e.1 then e' else e).2

def surplus (o : Origin) (present declared : Nat) : DecodeError :=
  match o with
  | .value => .invalidLength present "fewer elements in array"
  | .buffered => .invalidLength present (elementsText declared ++ " in sequence")
  | .text => .malformed .trailingCharacters

def closingFault (f : Fault) : Fault :=
  if f.flaw ∈ [.noListComma, .endInValue] then f.showing .trailingCharacters else f

def recordOfItems (o : Origin) (expected : String) (fs : Fields α) (ds : List Doc)
    (tail : Option Fault) : Except DecodeError α :=
  let declared := fs.names.length
  let r := readingOfItems o (expected ++ " with " ++ elementsText declared) ds
  if ds.length < declared then
    firstOf (tail.map (fun f => (ds.length, .malformed f.flaw))) (fs.read r 0)
  else
    match fs.read r 0 with
    | .error e => .error e.2
    | .ok x =>
      if declared < ds.length then .error (surplus o ds.length declared)
      else orFault x (tail.map closingFault)

def recordOfMembers (o : Origin) (fs : Fields α) (ds : List (Label × Doc))
    (tail : Option Fault) : Except DecodeError α :=
  firstOf (frameFault fs.names Doc.skipFault? ds tail) (fs.read (readingOfMembers o ds) 0)

def record (expected : String) (fs : Fields α) : Decoder α
  | o, .obj ds tail => recordOfMembers o fs ds tail
  | o, .arr ds tail => recordOfItems o expected fs ds tail
  | _, .guarded g (.obj _ _) => .error (.malformed g.flaw)
  | _, .guarded g (.arr _ _) => .error (.malformed g.flaw)
  | _, d => mismatch expected d

/-- A record whose members are those of two groups of fields. The first group is read on the way;
all other members are set aside, and the second group is read from them. -/
def flattened (expected : String) (own : Fields α) (shared : Fields β) : Decoder (α × β)
  | o, .obj ds tail => do
    let x ← firstOf (frameFault own.names Doc.fault? ds tail) (own.read (readingOfMembers o ds) 0)
    let rest := ds.filter (fun e => e.1.name ∉ own.names)
    let y ← recordOfMembers .buffered shared rest Option.none
    pure (x, y)
  | _, .guarded g (.obj _ _) => .error (.malformed g.flaw)
  | _, d => mismatch expected d

def tag (names : List String) (pick : String → Option α) : Decoder α
  | _, .str s => variantNamed names pick s
  | _, d => mismatch "variant identifier" d

/-- A union whose variant stands under the member `type`, or first in a list. Everything else is
set aside as the content of the variant. -/
def tagged (expected : String) (names : List String) (pick : String → Option α) :
    Decoder (α × Doc)
  | o, .obj ds tail => do
    let fs := Fields.required "type" (tag names pick)
    let x ← firstOf (frameFault fs.names Doc.fault? ds tail) (fs.read (readingOfMembers o ds) 0)
    pure (x, .obj (ds.filter (fun e => e.1.name ≠ "type")) Option.none)
  | _, .arr [] tail => orFault () tail >>= fun _ => .error (.missingField "type")
  | o, .arr (d :: ds) tail => do
    let x ← tag names pick o d
    let _ ← orFault () (Doc.itemsFault? ds <|> tail)
    pure (x, .arr ds Option.none)
  | _, .guarded g (.obj _ _) => .error (.malformed g.flaw)
  | _, .guarded g (.arr _ _) => .error (.malformed g.flaw)
  | _, d => mismatch expected d

def noContent : Decoder Unit
  | _, .arr (d :: ds) _ => .error (surplus .buffered (d :: ds).length 0)
  | _, _ => .ok ()

def ofJson (f : Decoder α) (j : Json) : Except DecodeError α := f .value (Doc.ofJson j)

def ofText (f : Decoder α) (s : String) : Except DecodeError α :=
  let (d, tail) := Json.readText s
  f .text d >>= fun x => orFault x tail

end Decode

end NodeRun
