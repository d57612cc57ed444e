import LispDoc.Sexp.Basic

/-!
# Printed form of S-expressions

Items are separated by single spaces. In a string only the quote and the backslash are escaped.
-/

namespace LispDoc.Sexp

/-- Floats are written in full from a ten-thousandth up to ten quadrillion; a tie goes up. -/
def floatLayout : Layout := ⟨-4, 16, false, true, true⟩

/-- The printed form of a float. -/
def renderFloat (x : Binary64) : List Char :=
  if x.isFinite then floatLayout.write x
  else if x.isInfinite then (if x.isNegative then "-inf" else "inf").toList
  else "NaN".toList

/-- One character inside a printed string. -/
def renderChar (c : Char) : List Char := if c == '"' || c == '\\' then ['\\', c] else [c]

mutual
/-- The printed form. -/
def render : Sexp → List Char
  | symbol name => name.toList
  | string text => '"' :: text.toList.flatMap renderChar ++ ['"']
  | integer value => Digits.ofInt value.toInt
  | float value => renderFloat value
  | quoted inner => '\x27' :: inner.render
  | list items => '(' :: renderItems items ++ [')']
  | vector items => '[' :: renderItems items ++ [']']

/-- The printed forms, separated by spaces. -/
def renderItems : List Sexp → List Char
  | [] => []
  | [item] => item.render
  | item :: items => item.render ++ ' ' :: renderItems items
end

/-- The printed form as a string. -/
def print (form : Sexp) : String := String.ofList form.render

end LispDoc.Sexp
