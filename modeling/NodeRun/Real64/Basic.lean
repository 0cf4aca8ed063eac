/-!
Floating point numbers of 64 bits, held as their bits. A finite number is `mantissa * 2 ^ scale`
with its sign; `ofRatio` gives the number nearest to a quotient, a tie going to the even mantissa.
-/

namespace NodeRun

structure Real64 where
  bits : UInt64
  deriving DecidableEq, Repr, Inhabited

namespace Real64

def signBit : Nat := 0x8000000000000000

def hiddenBit : Nat := 0x10000000000000

def negative (x : Real64) : Bool := 0x8000000000000000 ≤ x.bits

def magnitude (x : Real64) : Nat := x.bits.toNat % signBit

def isFinite (x : Real64) : Bool := x.magnitude < 0x7ff * hiddenBit

def isZero (x : Real64) : Bool := x.magnitude == 0

def mantissa (x : Real64) : Nat :=
  if x.magnitude < hiddenBit then x.magnitude else hiddenBit + x.magnitude % hiddenBit

def scale (x : Real64) : Int :=
  if x.magnitude < hiddenBit then -1074 else (x.magnitude / hiddenBit : Nat) - 1075

def ofMagnitude (negative : Bool) (magnitude : Nat) : Real64 :=
  ⟨UInt64.ofNat ((if negative then signBit else 0) + min magnitude (0x7ff * hiddenBit))⟩

def zero : Real64 := ⟨0⟩

def infinity (negative : Bool) : Real64 := ofMagnitude negative (0x7ff * hiddenBit)

def nan : Real64 := ⟨0x7ff8000000000000⟩

def neg (x : Real64) : Real64 := ⟨x.bits ^^^ 0x8000000000000000⟩

/-- `num / den` in units of `2 ^ e`, as a quotient of natural numbers. -/
def inUnits (num den : Nat) (e : Int) : Nat × Nat :=
  if 0 ≤ e then (num, den * Nat.pow 2 e.toNat) else (num * Nat.pow 2 (-e).toNat, den)

inductive Tie where
  | even
  | up
  deriving DecidableEq, Repr

def roundNearest (tie : Tie) (num den : Nat) : Nat :=
  let q := num / den
  let r := num % den
  if 2 * r < den then q
  else if den < 2 * r then q + 1
  else if tie = .even ∧ q % 2 = 0 then q
  else q + 1

def unitOf (num den : Nat) : Int :=
  let guess : Int := (num.log2 : Int) - den.log2 - 52
  let (n, d) := inUnits num den guess
  max (-1074) (if n < d * hiddenBit then guess - 1 else guess)

def ofRatio (negative : Bool) (num den : Nat) : Real64 :=
  if num = 0 then ofMagnitude negative 0
  else
    let e := unitOf num den
    let (n, d) := inUnits num den e
    ofMagnitude negative ((e + 1074).toNat * hiddenBit + roundNearest .even n d)

def ofInt (n : Int) : Real64 := ofRatio (n < 0) n.natAbs 1

def ratio (x : Real64) : Nat × Nat :=
  if 0 ≤ x.scale then (x.mantissa * Nat.pow 2 x.scale.toNat, 1)
  else (x.mantissa, Nat.pow 2 (-x.scale).toNat)

def mul (x y : Real64) : Real64 :=
  let (n, d) := x.ratio
  let (n', d') := y.ratio
  ofRatio (x.negative != y.negative) (n * n') (d * d')

/-- `y` must not be zero. -/
def div (x y : Real64) : Real64 :=
  let (n, d) := x.ratio
  let (n', d') := y.ratio
  ofRatio (x.negative != y.negative) (n * d') (d * n')

/-- The number nearest to `digits * 10 ^ exponent`. Exponents that leave the range for certain are
settled before any power is taken. -/
def ofDecimal (negative : Bool) (digits : Nat) (exponent : Int) : Real64 :=
  if digits = 0 then ofMagnitude negative 0
  else if 310 < exponent then infinity negative
  else if exponent + (digits.log2 : Int) < -1100 then ofMagnitude negative 0
  else if 0 ≤ exponent then ofRatio negative (digits * Nat.pow 10 exponent.toNat) 1
  else ofRatio negative digits (Nat.pow 10 (-exponent).toNat)

end Real64

end NodeRun
