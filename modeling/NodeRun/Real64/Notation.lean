import NodeRun.Real64.Shortest

namespace NodeRun

structure RealStyle where
  lowest : Int
  highest : Int
  plus : String
  tie : Real64.Tie
  deriving Repr

namespace RealStyle

/-- The style of JSON text: `0.00001` and `1e+16`, a tie going to the even digit. -/
def json : RealStyle := ⟨-5, 15, "+", .even⟩

/-- The style of values shown inside records: `1e-5` and `1e16`, a tie going up. -/
def shown : RealStyle := ⟨-4, 15, "", .up⟩

end RealStyle

def digitText (n : Nat) : List Char := Nat.toDigits 10 n

def intText (n : Int) : List Char :=
  if n < 0 then '-' :: digitText n.natAbs else digitText n.natAbs

namespace Decimal

def leading (d : Decimal) : Int := (digitText d.digits).length - 1 + d.exponent

def positional (d : Decimal) : List Char :=
  let ds := digitText d.digits
  if 0 ≤ d.exponent then ds ++ List.replicate d.exponent.toNat '0' ++ ['.', '0']
  else
    let places := (-d.exponent).toNat
    if places < ds.length then ds.take (ds.length - places) ++ '.' :: ds.drop (ds.length - places)
    else ['0', '.'] ++ List.replicate (places - ds.length) '0' ++ ds

def scientific (plus : String) (d : Decimal) : List Char :=
  let body := match digitText d.digits with
    | [] => []
    | [c] => [c]
    | c :: rest => c :: '.' :: rest
  let sign := if 0 ≤ d.leading then plus.toList else []
  body ++ 'e' :: sign ++ intText d.leading

end Decimal

namespace Real64

def render (style : RealStyle) (x : Real64) : String :=
  if x.isFinite then
    let d := x.shortest style.tie
    let body :=
      if x.isZero || (style.lowest ≤ d.leading && d.leading ≤ style.highest) then d.positional
      else d.scientific style.plus
    String.ofList (if x.negative then '-' :: body else body)
  else if 0x7ff * hiddenBit < x.magnitude then "NaN"
  else if x.negative then "-inf" else "inf"

end Real64

end NodeRun
