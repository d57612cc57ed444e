/-!
# Powers

The powers of two and ten that scale numbers.
-/

namespace LispDoc

/-- Two to the power of `n`. -/
def twoPow (n : Nat) : Nat := Nat.pow 2 n

/-- Ten to the power of `n`. -/
def tenPow (n : Nat) : Nat := Nat.pow 10 n

end LispDoc
