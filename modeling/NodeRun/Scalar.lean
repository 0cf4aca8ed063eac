import NodeRun.Error
import NodeRun.Text.Blank

namespace NodeRun.Scalar

def digit? (c : Char) : Option Nat := if c.isDigit then some (c.toNat - 0x30) else none

def int64Limit : Int := 0x8000000000000000

def readDigits (down : Bool) (n : Int) : List Char → Except ParseReason Int
  | [] => .ok n
  | c :: cs =>
    match digit? c with
    | none => .error .invalidDigit
    | some d =>
      let next := if down then n * 10 - d else n * 10 + d
      if next < -int64Limit then .error .tooSmall
      else if int64Limit ≤ next then .error .tooLarge
      else readDigits down next cs

def readInteger : List Char → Except ParseReason Int
  | [] => .error .emptyInteger
  | ['+'] => .error .invalidDigit
  | ['-'] => .error .invalidDigit
  | '+' :: cs => readDigits false 0 cs
  | '-' :: cs => readDigits true 0 cs
  | cs => readDigits false 0 cs

def lower (cs : List Char) : List Char := cs.map Char.toLower

def readBool (cs : List Char) : Except ParseReason Bool :=
  let word := String.ofList (lower cs)
  if word = "true" ∨ word = "1" then .ok true
  else if word = "false" ∨ word = "0" then .ok false
  else .error .notBoolean

def splitSign : List Char → Bool × List Char
  | '+' :: cs => (false, cs)
  | '-' :: cs => (true, cs)
  | cs => (false, cs)

def natOf (cs : List Char) : Nat := cs.foldl (fun n c => n * 10 + (c.toNat - 0x30)) 0

def readExponent : List Char → Option Int
  | [] => some 0
  | c :: cs =>
    let (negative, ds) := splitSign cs
    if (c = 'e' ∨ c = 'E') ∧ ds ≠ [] ∧ ds.all Char.isDigit then
      some (if negative then -(natOf ds : Int) else natOf ds)
    else none

def readDecimal (negative : Bool) (cs : List Char) : Option Real64 :=
  let whole := cs.takeWhile Char.isDigit
  let rest := cs.dropWhile Char.isDigit
  let (fraction, rest) := match rest with
    | '.' :: r => (r.takeWhile Char.isDigit, r.dropWhile Char.isDigit)
    | r => ([], r)
  if whole = [] ∧ fraction = [] then none
  else
    (readExponent rest).map (fun e =>
      Real64.ofDecimal negative (natOf (whole ++ fraction)) (e - fraction.length))

def readFloat (cs : List Char) : Except ParseReason Real64 :=
  let (negative, body) := splitSign cs
  let word := String.ofList (lower body)
  if cs = [] then .error .emptyFloat
  else if word = "inf" ∨ word = "infinity" then .ok (Real64.infinity negative)
  else if word = "nan" then .ok Real64.nan
  else
    match readDecimal negative body with
    | some x => .ok x
    | none => .error .invalidFloat

def readFinite (cs : List Char) : Except ParseReason Real64 := do
  let x ← readFloat cs
  if x.isFinite then pure x else .error .notFinite

def read (type : FieldType) (raw : String) : Except ParseReason FieldValue :=
  let cs := Text.trimmed raw.toList
  match type with
  | .int => (readInteger cs).map (fun n => .int (Int64.ofInt n))
  | .float => (readFinite cs).map .float
  | .bool => (readBool cs).map .bool
  | _ => .ok (.str raw)

end NodeRun.Scalar
