import LispDoc.Sexp.Basic

/-!
# Function quotes

`#'car` is read as the symbol `#` followed by `'car`. `Sexp.sanitize` drops such a `#` wherever a quoted symbol follows
it, in lists and vectors at every depth.
-/

namespace LispDoc.Sexp

/-- `item` is a stray `#` in front of `rest`. -/
def isStrayHash (item : Sexp) (rest : List Sexp) : Bool :=
  item.symbol? == some "#" && rest.head?.any fun next => next.quotedSymbol?.isSome

mutual
/-- The form without function quote marks. -/
def sanitize : Sexp → Sexp
  | list items => list (sanitizeItems items)
  | vector items => vector (sanitizeItems items)
  | quoted inner => quoted inner.sanitize
  | other => other

/-- The items without function quote marks. -/
def sanitizeItems : List Sexp → List Sexp
  | [] => []
  | item :: rest =>
    if isStrayHash item rest then sanitizeItems rest else item.sanitize :: sanitizeItems rest
end

mutual
theorem size_sanitize_le : (form : Sexp) → form.sanitize.size ≤ form.size
  | list items => by simp only [sanitize, size]; have := sizeItems_sanitizeItems_le items; omega
  | vector items => by simp only [sanitize, size]; have := sizeItems_sanitizeItems_le items; omega
  | quoted inner => by simp only [sanitize, size]; have := size_sanitize_le inner; omega
  | symbol _ => by simp [sanitize]
  | string _ => by simp [sanitize]
  | integer _ => by simp [sanitize]
  | float _ => by simp [sanitize]

theorem sizeItems_sanitizeItems_le : (items : List Sexp) → sizeItems (sanitizeItems items) ≤ sizeItems items
  | [] => by simp [sanitizeItems]
  | item :: rest => by
    have hi := size_sanitize_le item
    have hr := sizeItems_sanitizeItems_le rest
    simp only [sanitizeItems]
    split <;> simp only [sizeItems] <;> omega
end

end LispDoc.Sexp
