/-!
# Sets of characters given by ranges of code points

A property of characters that has no short description is a list of closed ranges of code points. `CharRange.any`
looks a character up in such a list.
-/

namespace LispDoc.Text

/-- A closed range of code points: first and last. -/
abbrev CharRange := Nat × Nat

/-- `true` when the code point of `c` lies in `r`. -/
def CharRange.has (r : CharRange) (c : Char) : Bool := r.1 ≤ c.toNat && c.toNat ≤ r.2

/-- `true` when `c` lies in one of `rs`. -/
def CharRange.any (rs : List CharRange) (c : Char) : Bool := rs.any (·.has c)

theorem CharRange.any_eq_true {rs : List CharRange} {c : Char} :
    CharRange.any rs c = true ↔ ∃ r ∈ rs, r.1 ≤ c.toNat ∧ c.toNat ≤ r.2 := by
  simp [CharRange.any, CharRange.has]

end LispDoc.Text
