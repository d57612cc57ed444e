import LispDoc.Number.Digits
import LispDoc.Number.Power

/-!
# Binary floating point numbers of 64 bits

A number is its bit pattern; all arithmetic on it is exact arithmetic on natural numbers. A finite number is a
mantissa times a power of two, and a ratio is rounded to the nearest number, a tie going to the even mantissa.
-/

namespace LispDoc

/-- A floating point number: sign bit, eleven exponent bits, fifty-two fraction bits. -/
structure Binary64 where
  bits : UInt64
  deriving DecidableEq, Repr, Inhabited

namespace Binary64

/-- The sign bit. -/
def signBit : Nat := 0x8000000000000000

/-- The step of the exponent bits, which is also the leading bit of a mantissa. -/
def leadBit : Nat := 0x10000000000000

/-- The bit pattern without the sign. -/
def magnitude (x : Binary64) : Nat := x.bits.toNat % signBit

/-- `true` when the sign bit is set, which it may be for zero. -/
def isNegative (x : Binary64) : Bool := signBit ≤ x.bits.toNat

/-- The magnitude of infinity; larger ones are no numbers. -/
def infinite : Nat := 0x7FF * leadBit

/-- The number with the given sign and magnitude. -/
def ofMagnitude (negative : Bool) (magnitude : Nat) : Binary64 :=
  ⟨((if negative then signBit else 0) + magnitude).toUInt64⟩

/-- Infinity with a sign. -/
def infinity (negative : Bool) : Binary64 := ofMagnitude negative infinite

/-- A pattern that is no number. -/
def notANumber : Binary64 := ofMagnitude false (infinite + leadBit / 2)

def isFinite (x : Binary64) : Bool := x.magnitude < infinite

def isInfinite (x : Binary64) : Bool := x.magnitude == infinite

def isZero (x : Binary64) : Bool := x.magnitude == 0

/-- The whole number that is scaled by `2 ^ exponent`. -/
def mantissa (x : Binary64) : Nat :=
  x.magnitude % leadBit + if x.magnitude < leadBit then 0 else leadBit

/-- The power of two that scales the mantissa. -/
def exponent (x : Binary64) : Int :=
  if x.magnitude < leadBit then -1074 else (x.magnitude / leadBit : Nat) - 1075

/-- The number with the opposite sign. -/
def negate (x : Binary64) : Binary64 := ofMagnitude (!x.isNegative) x.magnitude

/-- The quotient rounded to the nearest whole number, a half to the even one. -/
def roundQuotient (num den : Nat) : Nat :=
  let q := num / den
  let r := num % den
  if 2 * r < den then q else if den < 2 * r then q + 1 else q + q % 2

/-- `2 ^ k ≤ num / den`. -/
def powLe (k : Int) (num den : Nat) : Bool :=
  if 0 ≤ k then den * twoPow k.toNat ≤ num else den ≤ num * twoPow (-k).toNat

/-- The exponent of the largest power of two that does not exceed `num / den`. -/
def floorLog2 (num den : Nat) : Int :=
  let k := (num.log2 : Int) - den.log2
  if powLe k num den then k else k - 1

/-- The number nearest to `num / den`; infinity beyond the largest one. -/
def ofRatio (negative : Bool) (num den : Nat) : Binary64 :=
  if num = 0 then ofMagnitude negative 0
  else
    let q := max (-1074) (floorLog2 num den - 52)
    let m := if 0 ≤ q then roundQuotient num (den * twoPow q.toNat) else roundQuotient (num * twoPow (-q).toNat) den
    ofMagnitude negative (min infinite ((q + 1074).toNat * leadBit + m))

/-- The number nearest to `digits · 10 ^ scale`. Far outside the range of finite numbers the answer is infinity or
zero without further computation. -/
def ofDecimal (negative : Bool) (digits : Nat) (scale : Int) : Binary64 :=
  if digits = 0 then ofMagnitude negative 0
  else if 400 < scale then infinity negative
  else if scale < -(400 + digits.log2 : Int) then ofMagnitude negative 0
  else if 0 ≤ scale then ofRatio negative (digits * tenPow scale.toNat) 1
  else ofRatio negative digits (tenPow (-scale).toNat)

/-- The nearest number to a whole number. -/
def ofNat (n : Nat) : Binary64 := ofRatio false n 1

/-- The finite value as a ratio, without its sign. -/
def ratio (x : Binary64) : Nat × Nat :=
  if 0 ≤ x.exponent then (x.mantissa * twoPow x.exponent.toNat, 1) else (x.mantissa, twoPow (-x.exponent).toNat)

/-- The product of two non-negative finite numbers, rounded once. -/
def mul (x y : Binary64) : Binary64 :=
  ofRatio false (x.ratio.1 * y.ratio.1) (x.ratio.2 * y.ratio.2)

/-- The quotient of two non-negative finite numbers, the second not zero, rounded once. -/
def div (x y : Binary64) : Binary64 :=
  ofRatio false (x.ratio.1 * y.ratio.2) (x.ratio.2 * y.ratio.1)

end Binary64

end LispDoc
