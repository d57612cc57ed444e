import LispDoc.Number.Binary64

/-!
# The fewest digits that read back

A finite number stands for all reals that round to it, an interval that includes its ends when the mantissa is even.
`Binary64.shortest` gives the decimal with the fewest digits in that interval, and of those with as many digits the
nearest. `Layout` says how such a decimal is written: where full notation ends, how an exponent looks, whether a whole
number keeps a fraction, which way a tie goes.
-/

namespace LispDoc

/-- The value `digits · 10 ^ scale`. -/
structure Decimal where
  digits : Nat
  scale : Int
  deriving DecidableEq, Repr

namespace Binary64

/-- `10 ^ k ≤ num / den`. -/
def tenPowLe (k : Int) (num den : Nat) : Bool :=
  if 0 ≤ k then den * tenPow k.toNat ≤ num else den ≤ num * tenPow (-k).toNat

/-- The exponent of the largest power of ten that does not exceed `num / den`. -/
def floorLog10 (num den : Nat) : Int :=
  let k := Int.fdiv (((num.log2 : Int) - den.log2) * 30103) 100000
  if tenPowLe (k + 1) num den then k + 1 else if tenPowLe k num den then k else k - 1

/-- Four times the mantissa and the ends of the rounding interval on the same scale: half a step up and half a step
down, where the step below a power of two is half as wide. -/
def interval (x : Binary64) : Nat × Nat × Nat :=
  let m := x.mantissa
  (4 * m - (if m == leadBit && x.exponent != -1074 then 1 else 2), 4 * m, 4 * m + 2)

/-- The neighbour of the value on the grid of multiples of `10 ^ scale` that lies in the rounding interval, the nearer
one if both do. -/
def onGrid? (tieUp : Bool) (x : Binary64) (scale : Int) : Option Nat :=
  let (low, mid, high) := x.interval
  let two := x.exponent - 2
  let up := twoPow two.toNat * tenPow (-scale).toNat
  let down := twoPow (-two).toNat * tenPow scale.toNat
  let closed := x.mantissa % 2 == 0
  let inside (g : Nat) : Bool :=
    if closed then low * up ≤ g * down && g * down ≤ high * up else low * up < g * down && g * down < high * up
  let g := mid * up / down
  let r := mid * up % down
  match inside g, inside (g + 1) with
  | true, false => some g
  | false, true => some (g + 1)
  | true, true => some (if 2 * r < down || (2 * r == down && !tieUp && g % 2 == 0) then g else g + 1)
  | false, false => none

/-- A point of a grid as a decimal. The point above nine is ten, which has one digit on the next grid. -/
def ofGrid (scale : Int) (g : Nat) : Decimal := if g = 10 then ⟨1, scale + 1⟩ else ⟨g, scale⟩

/-- The decimal with the fewest digits that reads back as the finite number `x`, not zero. Seventeen digits always
suffice. -/
def shortest (tieUp : Bool) (x : Binary64) : Decimal :=
  let top := floorLog10 x.ratio.1 x.ratio.2
  let found := (List.range 17).findSome? fun (n : Nat) => (onGrid? tieUp x (top - n)).map (ofGrid (top - n))
  found.getD ⟨0, 0⟩

end Binary64

/-- How a number is written. -/
structure Layout where
  /-- the least decimal exponent that is written in full -/
  least : Int
  /-- from this decimal exponent on an exponent part is written -/
  bound : Int
  /-- whether an exponent that is not negative has a plus sign -/
  plus : Bool
  /-- whether a whole number written in full ends in `.0` -/
  fraction : Bool
  /-- of two equally near decimals the larger is taken; otherwise the even one -/
  tieUp : Bool

namespace Layout

/-- A decimal in full: no exponent part. -/
def full (l : Layout) (ds : List Char) (scale : Int) : List Char :=
  let point : Int := ds.length + scale
  if 0 ≤ scale then ds ++ List.replicate scale.toNat '0' ++ (if l.fraction then ['.', '0'] else [])
  else if 0 < point then ds.take point.toNat ++ '.' :: ds.drop point.toNat
  else '0' :: '.' :: List.replicate (-point).toNat '0' ++ ds

/-- A decimal with one digit in front of the point and an exponent part. -/
def scientific (l : Layout) (ds : List Char) (scale : Int) : List Char :=
  let exponent : Int := ds.length + scale - 1
  let lead := match ds with
    | [] => []
    | [d] => [d]
    | d :: rest => d :: '.' :: rest
  lead ++ ['e'] ++ (if l.plus && 0 ≤ exponent then ['+'] else []) ++ Digits.ofInt exponent

/-- A finite number in this layout. -/
def write (l : Layout) (x : Binary64) : List Char :=
  let body :=
    if x.isZero then l.full ['0'] 0
    else
      let d := x.shortest l.tieUp
      let ds := Digits.ofNat d.digits
      let exponent : Int := ds.length + d.scale - 1
      if l.least ≤ exponent && exponent < l.bound then l.full ds d.scale else l.scientific ds d.scale
  if x.isNegative then '-' :: body else body

end Layout

end LispDoc
