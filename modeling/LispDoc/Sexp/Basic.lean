import LispDoc.Number.Shortest
import LispDoc.Sexp.Token

/-!
# S-expressions

The values that source text is read into. Nothing is ever evaluated: the functions here answer the questions about
shape that definition forms ask, whether a form is a quoted symbol, a dotted pair, a constant.
-/

namespace LispDoc

inductive Sexp where
  | symbol (name : String)
  | string (text : String)
  | integer (value : Int64)
  | float (value : Binary64)
  | quoted (inner : Sexp)
  | list (items : List Sexp)
  | vector (items : List Sexp)
  deriving Repr, Inhabited

namespace Sexp

/-- The name of a symbol. -/
def symbol? : Sexp → Option String
  | symbol name => some name
  | _ => none

/-- The text of a string. -/
def string? : Sexp → Option String
  | string text => some text
  | _ => none

/-- The items of a list. -/
def list? : Sexp → Option (List Sexp)
  | list items => some items
  | _ => none

/-- What is quoted, with one level of quoting taken off. -/
def unquote? : Sexp → Option Sexp
  | quoted inner => some inner
  | _ => none

/-- The name in `'name`. -/
def quotedSymbol? : Sexp → Option String
  | quoted (symbol name) => some name
  | _ => none

/-- The two halves of a dotted pair. -/
def cons? : Sexp → Option (Sexp × Sexp)
  | list [car, symbol ".", cdr] => some (car, cdr)
  | _ => none

/-- Constants: strings, numbers, the empty list, `t` and `nil`. -/
def isPrimitive : Sexp → Bool
  | string _ => true
  | integer _ => true
  | float _ => true
  | list items => items.isEmpty
  | symbol name => name == "t" || name == "nil"
  | _ => false

/-- Everything is true but `nil` and the empty list. -/
def isTruthy : Sexp → Bool
  | symbol name => name != "nil"
  | list items => !items.isEmpty
  | _ => true

mutual
/-- The number of nodes. -/
def size : Sexp → Nat
  | quoted inner => inner.size + 1
  | list items => sizeItems items + 1
  | vector items => sizeItems items + 1
  | _ => 1

/-- The number of nodes of all items, and one for each item. -/
def sizeItems : List Sexp → Nat
  | [] => 0
  | item :: items => item.size + sizeItems items + 1
end

end Sexp

/-- A name that reads as one atom: not empty, and made of constituents. -/
def isSymbolName (name : String) : Bool := !name.toList.isEmpty && name.toList.all Token.isConstituent

end LispDoc
