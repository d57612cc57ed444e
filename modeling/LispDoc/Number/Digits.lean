/-!
# Whole numbers in decimal

Only the ten ASCII digits count as digits, and a number has an optional sign. An integer is a signed 64 bit word; a
text whose value does not fit is no integer.
-/

namespace LispDoc.Digits

/-- The value of a digit. -/
def value (c : Char) : Nat := c.toNat - '0'.toNat

/-- Appends the digits `cs` to the number `n`. -/
def append (n : Nat) (cs : List Char) : Nat := cs.foldl (fun m c => 10 * m + value c) n

/-- The number that the digits `cs` spell. -/
def toNat (cs : List Char) : Nat := append 0 cs

/-- One digit or more, and nothing else. -/
def isNumber (cs : List Char) : Bool := !cs.isEmpty && cs.all Char.isDigit

/-- Splits an optional sign off; `true` for minus. -/
def sign : List Char → Bool × List Char
  | '-' :: cs => (true, cs)
  | '+' :: cs => (false, cs)
  | cs => (false, cs)

/-- The digits of a number, without leading zeros. -/
def ofNat (n : Nat) : List Char := Nat.toDigits 10 n

/-- The digits of a number with a minus sign in front of a negative one. -/
def ofInt (n : Int) : List Char :=
  if n < 0 then '-' :: ofNat n.natAbs else ofNat n.natAbs

/-- The value with a sign. -/
def signed (negative : Bool) (n : Nat) : Int := if negative then -(n : Int) else n

/-- `true` for the values of a signed 64 bit word. -/
def fitsInt64 (n : Int) : Bool := -0x8000000000000000 ≤ n && n < 0x8000000000000000

/-- The least number that does not fit in a 64 bit word. -/
def wordBound : Nat := 0x10000000000000000

/-- Reads a signed 64 bit word: an optional sign and digits, within range. -/
def toInt64? (cs : List Char) : Option Int64 :=
  let (negative, ds) := sign cs
  if isNumber ds && fitsInt64 (signed negative (toNat ds)) then some (Int64.ofInt (signed negative (toNat ds)))
  else none

end LispDoc.Digits
