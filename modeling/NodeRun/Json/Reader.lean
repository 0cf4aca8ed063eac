import NodeRun.Json.Doc

/-!
Reading JSON text. A reader gives the document it met and the text after it, or no text when a
fault ends the reading. Numbers are rounded step by step: the first nineteen or twenty digits are
rounded to a `Real64`, and then the power of ten is multiplied in or divided out.
-/

namespace NodeRun.Json

def isSpace (c : Char) : Bool := c = ' ' || c = '\n' || c = '\t' || c = '\r'

def skipSpace (cs : List Char) : List Char := cs.dropWhile isSpace

def atEnd (f : Flaw) : Fault := ⟨f, 0⟩

def before (f : Flaw) (cs : List Char) : Fault := ⟨f, (String.ofList cs).utf8ByteSize⟩

def atChar (f : Flaw) (c : Char) (cs : List Char) : Fault :=
  ⟨f, (c.utf8Size - 1) + (String.ofList cs).utf8ByteSize⟩

def digitValue (c : Char) : Nat := c.toNat - 0x30

def wordLimit : Nat := 0x10000000000000000

def significand (start : Nat) : List Char → Nat × Nat
  | [] => (start, 0)
  | c :: cs =>
    let next := start * 10 + digitValue c
    if next < wordLimit then significand next cs else (start, (c :: cs).length)

def taken (start : Nat) (cs : List Char) : Nat := cs.length - (significand start cs).2

def power (n : Nat) : Real64 := Real64.ofDecimal false 1 n

/-- `x * 10 ^ exponent` in steps of at most `10 ^ 308`; none when it is out of range. -/
def scaleBy : Nat → Real64 → Int → Option Real64
  | 0, _, _ => some Real64.zero
  | fuel + 1, x, exponent =>
    if exponent.natAbs ≤ 308 then
      if 0 ≤ exponent then
        let y := x.mul (power exponent.natAbs)
        if y.isFinite then some y else none
      else some (x.div (power exponent.natAbs))
    else if x.isZero then some x
    else if 0 ≤ exponent then none
    else scaleBy fuel (x.div (power 308)) (exponent + 308)

def signed (negative : Bool) (x : Real64) : Real64 := if negative then x.neg else x

def realDoc (negative : Bool) (digits : Nat) (exponent : Int) (rest : List Char) : Doc :=
  match scaleBy 5 (Real64.ofInt digits) exponent with
  | some x => .real (signed negative x)
  | none => .guarded (before .numberOutOfRange rest) .null

def exponentLimit : Nat := 0x80000000

def natOfDigits (cs : List Char) : Nat := cs.foldl (fun n c => n * 10 + digitValue c) 0

def surplusDigits (e : Nat) : List Char → List Char
  | [] => []
  | c :: cs =>
    let e := e * 10 + digitValue c
    if exponentLimit ≤ e then cs else surplusDigits e cs

def numberDoc (negative : Bool) (whole : List Char) (fraction : Option (List Char))
    (exponent : Option (Bool × List Char)) (rest : List Char) : Doc :=
  let (digits, dropped) := significand 0 whole
  match fraction, exponent with
  | none, none =>
    if dropped ≠ 0 then realDoc negative digits dropped rest
    else if !negative then .int digits
    else if digits = 0 || 0x8000000000000000 < digits then .real (Real64.ofInt digits).neg
    else .int (-(digits : Int))
  | _, _ =>
    let tail := fraction.getD []
    let digits' := (significand digits tail).1
    let start : Int := (dropped : Int) - (taken digits tail : Int)
    match exponent with
    | none => realDoc negative digits' start rest
    | some (down, es) =>
      let e := natOfDigits es
      if exponentLimit ≤ e then
        if digits' ≠ 0 && !down then
          .guarded (before .numberOutOfRange (surplusDigits 0 es ++ rest)) .null
        else .real (signed negative Real64.zero)
      else realDoc negative digits' (if down then start - e else start + e) rest

def noDigit : List Char → Fault
  | [] => atEnd .endInNumber
  | c :: cs => atChar .invalidNumber c cs

def exponentPart (cs : List Char) : Bool × List Char × List Char :=
  match cs with
  | '+' :: r => (false, r.takeWhile Char.isDigit, r.dropWhile Char.isDigit)
  | '-' :: r => (true, r.takeWhile Char.isDigit, r.dropWhile Char.isDigit)
  | r => (false, r.takeWhile Char.isDigit, r.dropWhile Char.isDigit)

def readExponent (negative : Bool) (whole : List Char) (fraction : Option (List Char))
    (cs : List Char) : Doc × Option (List Char) :=
  match cs with
  | c :: r =>
    if c = 'e' || c = 'E' then
      let (down, es, rest) := exponentPart r
      if es.isEmpty then (.broken (noDigit rest), none)
      else (numberDoc negative whole fraction (some (down, es)) rest, some rest)
    else (numberDoc negative whole fraction none cs, some cs)
  | [] => (numberDoc negative whole fraction none [], some [])

def readNumber (negative : Bool) (cs : List Char) : Doc × Option (List Char) :=
  let whole := cs.takeWhile Char.isDigit
  let rest := cs.dropWhile Char.isDigit
  match whole with
  | [] => (.broken (noDigit rest), none)
  | '0' :: _ :: digits => (.broken (before .invalidNumber (digits ++ rest)), none)
  | _ =>
    match rest with
    | '.' :: r =>
      let fraction := r.takeWhile Char.isDigit
      let rest := r.dropWhile Char.isDigit
      if fraction.isEmpty then (.broken (noDigit rest), none)
      else readExponent negative whole (some fraction) rest
    | _ => readExponent negative whole none rest

def hexValue (c : Char) : Option Nat :=
  if c.isDigit then some (c.toNat - 0x30)
  else if 'a' ≤ c && c ≤ 'f' then some (c.toNat - 0x57)
  else if 'A' ≤ c && c ≤ 'F' then some (c.toNat - 0x37)
  else none

def hexUnit (a b c d : Char) : Option Nat := do
  let a ← hexValue a
  let b ← hexValue b
  let c ← hexValue c
  let d ← hexValue d
  pure (((a * 16 + b) * 16 + c) * 16 + d)

def simpleEscape (c : Char) : Option Char :=
  if c = '"' then some '"'
  else if c = '\\' then some '\\'
  else if c = '/' then some '/'
  else if c = 'b' then some '\x08'
  else if c = 'f' then some '\x0c'
  else if c = 'n' then some '\n'
  else if c = 'r' then some '\r'
  else if c = 't' then some '\t'
  else none

def isHighSurrogate (n : Nat) : Bool := 0xd800 ≤ n && n ≤ 0xdbff

def isLowSurrogate (n : Nat) : Bool := 0xdc00 ≤ n && n ≤ 0xdfff

/-- What the characters of a string gave so far: the characters in reverse, the first fault that
only matters to a reader who wants them, and a leading surrogate that awaits its partner. -/
structure StringState where
  chars : List Char
  fault : Option Fault
  high : Option Nat
  deriving Repr

namespace StringState

def push (s : StringState) (c : Char) : StringState :=
  { s with chars := c :: s.chars, high := none }

def spoil (s : StringState) (f : Fault) : StringState :=
  { s with fault := s.fault <|> some f, high := none }

def settle (s : StringState) (c : Char) (rest : List Char) : StringState :=
  if s.high.isSome then s.spoil (atChar .surrogateCut c rest) else s

def unit (s : StringState) (n : Nat) (rest : List Char) : StringState :=
  match s.high with
  | some h =>
    if isLowSurrogate n then s.push (Char.ofNat (0x10000 + (h - 0xd800) * 0x400 + (n - 0xdc00)))
    else s.spoil (before .surrogateAlone rest)
  | none =>
    if isLowSurrogate n then s.spoil (before .surrogateAlone rest)
    else if isHighSurrogate n then { s with high := some n }
    else s.push (Char.ofNat n)

def label (s : StringState) : Label := ⟨String.ofList s.chars.reverse, s.fault⟩

end StringState

def noUnit (cs : List Char) : Fault :=
  let size := (String.ofList cs).utf8ByteSize
  if 4 ≤ size then ⟨.invalidEscape, size - 4⟩ else atEnd .endInString

def readString (s : StringState) : List Char → StringState × Except Fault (List Char)
  | [] => (s, .error (atEnd .endInString))
  | '"' :: rest => (s.settle '"' rest, .ok rest)
  | ['\\'] => (s, .error (atEnd .endInString))
  | '\\' :: 'u' :: a :: b :: c :: d :: rest =>
    match hexUnit a b c d with
    | some n => readString (s.unit n rest) rest
    | none => (s, .error (noUnit (a :: b :: c :: d :: rest)))
  | '\\' :: 'u' :: rest => (s, .error (noUnit rest))
  | '\\' :: c :: rest =>
    match simpleEscape c with
    | some e => readString ((s.settle c rest).push e) rest
    | none => (s.settle c rest, .error (atChar .invalidEscape c rest))
  | c :: rest =>
    if c.toNat < 0x20 then (s.settle c rest, .error (atChar .controlCharacter c rest))
    else readString ((s.settle c rest).push c) rest

def guardedBy (f : Option Fault) (d : Doc) : Doc :=
  match f with
  | some f => .guarded f d
  | none => d

def readWord (word : List Char) (d : Doc) (cs : List Char) : Doc × Option (List Char) :=
  match word, cs with
  | [], cs => (d, some cs)
  | _ :: _, [] => (.broken (atEnd .endInWord), none)
  | w :: ws, c :: cs =>
    if w = c then readWord ws d cs else (.broken (atChar .noIdent c cs), none)

def depthLimit : Nat := 127

/-- The document of a list or an object with so many others around it, whose text after the opening
bracket is given. A reader who wants the value stops at the first that is too deep, so the guard
stands at that depth only. -/
def nested (depth : Nat) (cs : List Char) (d : Doc) : Doc :=
  guardedBy (if depth = depthLimit then some (before .tooDeep cs) else none) d

def readLabel (cs : List Char) : Except Fault (Label × Except Fault (List Char)) :=
  match readString ⟨[], none, none⟩ cs with
  | (s, .error f) => if s.fault.isSome then .ok (s.label, .error f) else .error f
  | (s, .ok rest) =>
    match skipSpace rest with
    | [] => .ok (s.label, .error (atEnd .endInObject))
    | ':' :: rest => .ok (s.label, .ok rest)
    | c :: rest => .ok (s.label, .error (atChar .noColon c rest))

mutual

def readValue : Nat → Nat → List Char → Doc × Option (List Char)
  | 0, _, _ => (.broken (atEnd .endInValue), none)
  | fuel + 1, depth, cs =>
    match skipSpace cs with
    | [] => (.broken (atEnd .endInValue), none)
    | 'n' :: r => readWord ['u', 'l', 'l'] .null r
    | 't' :: r => readWord ['r', 'u', 'e'] (.bool true) r
    | 'f' :: r => readWord ['a', 'l', 's', 'e'] (.bool false) r
    | '-' :: r => readNumber true r
    | '"' :: r =>
      match readString ⟨[], none, none⟩ r with
      | (s, .error f) => (guardedBy s.fault (.broken f), none)
      | (s, .ok rest) => (guardedBy s.fault (.str s.label.name), some rest)
    | '[' :: r =>
      let (items, tail, rest) := readItems fuel (depth + 1) true r
      (nested depth r (.arr items tail), rest)
    | '\x7b' :: r =>
      let (members, tail, rest) := readMembers fuel (depth + 1) true r
      (nested depth r (.obj members tail), rest)
    | c :: r =>
      if c.isDigit then readNumber false (c :: r) else (.broken (atChar .noValue c r), none)

/-- Items up to the closing bracket. `first` tells whether no item has been read yet. -/
def readItems : Nat → Nat → Bool → List Char → List Doc × Option Fault × Option (List Char)
  | 0, _, _, _ => ([], some (atEnd .endInList), none)
  | fuel + 1, depth, first, cs =>
    match skipSpace cs with
    | [] => ([], some (atEnd .endInList), none)
    | ']' :: r => ([], none, some r)
    | c :: r =>
      if first then
        let (d, rest) := readValue fuel depth (c :: r)
        match rest with
        | none => ([d], none, none)
        | some rest =>
          let (ds, tail, rest) := readItems fuel depth false rest
          (d :: ds, tail, rest)
      else if c = ',' then
        match skipSpace r with
        | [] => ([], some (atEnd .endInValue), none)
        | ']' :: r => ([], some (before .trailingComma r), none)
        | r =>
          let (d, rest) := readValue fuel depth r
          match rest with
          | none => ([d], none, none)
          | some rest =>
            let (ds, tail, rest) := readItems fuel depth false rest
            (d :: ds, tail, rest)
      else ([], some (atChar .noListComma c r), none)

def readMembers : Nat → Nat → Bool → List Char →
    List (Label × Doc) × Option Fault × Option (List Char)
  | 0, _, _, _ => ([], some (atEnd .endInObject), none)
  | fuel + 1, depth, first, cs =>
    match skipSpace cs with
    | [] => ([], some (atEnd .endInObject), none)
    | '\x7d' :: r => ([], none, some r)
    | c :: r =>
      if !first && c ≠ ',' then ([], some (atChar .noObjectComma c r), none)
      else
        match (if first then c :: r else skipSpace r) with
        | [] => ([], some (atEnd .endInValue), none)
        | '"' :: r =>
          match readLabel r with
          | .error f => ([], some f, none)
          | .ok (l, .error f) => ([(l, .broken f)], none, none)
          | .ok (l, .ok r) =>
            let (d, rest) := readValue fuel depth r
            match rest with
            | none => ([(l, d)], none, none)
            | some rest =>
              let (ds, tail, rest) := readMembers fuel depth false rest
              ((l, d) :: ds, tail, rest)
        | '\x7d' :: r => ([], some (before .trailingComma r), none)
        | c :: r => ([], some (atChar .keyNotString c r), none)

end

def readText (s : String) : Doc × Option Fault :=
  let cs := s.toList
  match readValue (2 * cs.length + 2) 0 cs with
  | (d, none) => (d, none)
  | (d, some rest) =>
    (d, match skipSpace rest with
      | [] => none
      | c :: r => some (atChar .trailingCharacters c r))

def parse (s : String) : Except Fault Json :=
  match readText s with
  | (d, tail) =>
    match d.fault? <|> tail with
    | some f => .error f
    | none => .ok d.value

end NodeRun.Json
