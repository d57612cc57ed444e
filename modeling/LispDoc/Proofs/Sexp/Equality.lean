import LispDoc.Sexp.Basic
import Mathlib.Control.Monad.Basic

/-!
# Equality of forms

Whether two forms are equal is decided kind by kind and item by item (`Sexp.same_iff`), so that what a text is read as
can be found by evaluating the reader. Floats are compared as they are stored.
-/

namespace LispDoc.Sexp

mutual
/-- Whether two forms are the same form. -/
def same : Sexp → Sexp → Bool
  | symbol a, symbol b => a == b
  | string a, string b => a == b
  | integer a, integer b => a == b
  | float a, float b => a == b
  | quoted a, quoted b => a.same b
  | list as, list bs => sameItems as bs
  | vector as, vector bs => sameItems as bs
  | _, _ => false

def sameItems : List Sexp → List Sexp → Bool
  | [], [] => true
  | a :: as, b :: bs => a.same b && sameItems as bs
  | _, _ => false
end

mutual
theorem same_iff (a b : Sexp) : a.same b = true ↔ a = b := by
  cases a with
  | quoted a =>
    cases b with
    | quoted b => simp [same, same_iff a b]
    | _ => simp [same]
  | list as =>
    cases b with
    | list bs => simp [same, sameItems_iff as bs]
    | _ => simp [same]
  | vector as =>
    cases b with
    | vector bs => simp [same, sameItems_iff as bs]
    | _ => simp [same]
  | _ => cases b <;> simp [same]

theorem sameItems_iff (as bs : List Sexp) : sameItems as bs = true ↔ as = bs := by
  cases as with
  | nil => cases bs <;> simp [sameItems]
  | cons a as =>
    cases bs with
    | nil => simp [sameItems]
    | cons b bs => simp [sameItems, same_iff a b, sameItems_iff as bs]
end

/-- Equality of forms is decidable. It is made an instance where it is needed. -/
@[reducible]
def decEq : DecidableEq Sexp := fun a b => decidable_of_decidable_of_iff (a.same_iff b)

end LispDoc.Sexp
