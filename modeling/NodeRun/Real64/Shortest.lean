import NodeRun.Real64.Basic

/-!
The shortest decimal number that a finite `Real64` is the nearest neighbour of. Grids of one, two,
up to seventeen digits are tried in turn; on the first grid that has a point in the interval of
numbers rounding to the given one, the point nearest to it is taken. Two points may be equally near;
which one is taken is for the caller to say.
-/

namespace NodeRun

structure Decimal where
  digits : Nat
  exponent : Int
  deriving DecidableEq, Repr

namespace Real64

/-- The ends of the interval of numbers that round to `x`, and `x` between them, over one
denominator; the ends belong to it when the mantissa is even. -/
structure Neighbourhood where
  low : Nat
  value : Nat
  high : Nat
  den : Nat
  closed : Bool
  deriving DecidableEq, Repr

def neighbourhood (x : Real64) : Neighbourhood :=
  let m := x.mantissa
  let below := if m = hiddenBit ∧ -1074 < x.scale then 1 else 2
  let up := if 0 ≤ x.scale then Nat.pow 2 x.scale.toNat else 1
  let den := if 0 ≤ x.scale then 4 else 4 * Nat.pow 2 (-x.scale).toNat
  { low := (4 * m - below) * up
    value := 4 * m * up
    high := (4 * m + 2) * up
    den := den
    closed := m % 2 = 0 }

def Neighbourhood.contains (n : Neighbourhood) (d : Nat) (k : Int) : Bool :=
  let p := d * n.den * Nat.pow 10 k.toNat
  let low := n.low * Nat.pow 10 (-k).toNat
  let high := n.high * Nat.pow 10 (-k).toNat
  if n.closed then low ≤ p && p ≤ high else low < p && p < high

def Neighbourhood.reaches (n : Neighbourhood) (k : Int) : Bool :=
  n.den * Nat.pow 10 k.toNat ≤ n.value * Nat.pow 10 (-k).toNat

def Neighbourhood.leading (n : Neighbourhood) : Int :=
  let guess := (((n.value.log2 : Int) - n.den.log2) * 30103).fdiv 100000 - 1
  let guess := if n.reaches (guess + 1) then guess + 1 else guess
  if n.reaches (guess + 1) then guess + 1 else guess

def dropZeros : Nat → Nat → Int → Decimal
  | 0, d, k => ⟨d, k⟩
  | fuel + 1, d, k => if d % 10 = 0 ∧ d ≠ 0 then dropZeros fuel (d / 10) (k + 1) else ⟨d, k⟩

def Neighbourhood.onGrid (n : Neighbourhood) (tie : Tie) (k : Int) : Option Nat :=
  let num := n.value * Nat.pow 10 (-k).toNat
  let den := n.den * Nat.pow 10 k.toNat
  let d := num / den
  let nearest := roundNearest tie num den
  let other := if nearest = d then d + 1 else d
  if n.contains nearest k then some nearest
  else if n.contains other k then some other
  else none

/-- The first grid with a point in the interval, from the given number of digits on; seventeen
digits always suffice. -/
def Neighbourhood.shortestFrom (n : Neighbourhood) (tie : Tie) (leading : Int) :
    List Nat → Decimal
  | [] => ⟨0, 0⟩
  | places :: rest =>
    let k := leading - places
    match n.onGrid tie k with
    | some d => dropZeros 20 d k
    | none => n.shortestFrom tie leading rest

def shortest (tie : Tie) (x : Real64) : Decimal :=
  if x.isZero then ⟨0, 0⟩
  else
    let n := x.neighbourhood
    n.shortestFrom tie n.leading (List.range 17)

end Real64

end NodeRun
