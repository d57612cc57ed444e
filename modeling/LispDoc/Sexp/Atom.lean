import LispDoc.Sexp.Basic

/-!
# Atoms

An atom is an integer if it is a signed 64 bit word in decimal, a float if it has the shape of one, and a symbol
otherwise. A float has a fraction or an exponent part or both; the whole part may be missing only before a fraction.
-/

namespace LispDoc.Sexp

/-- The exponent part of a float, which may be missing: `e`, an optional sign and digits, to the end. -/
def exponent? : List Char → Option Int
  | [] => some 0
  | 'e' :: cs =>
    let (negative, ds) := Digits.sign cs
    if Digits.isNumber ds then some (Digits.signed negative (Digits.toNat ds)) else none
  | _ => none

/-- A float without its sign: digits of the whole part and of the fraction together, and the power of ten. -/
def unsignedFloat? (cs : List Char) : Option Decimal :=
  let whole := cs.takeWhile Char.isDigit
  match cs.dropWhile Char.isDigit with
  | '.' :: rest =>
    let fraction := rest.takeWhile Char.isDigit
    if fraction.isEmpty then none
    else (exponent? (rest.dropWhile Char.isDigit)).map fun e =>
      ⟨Digits.toNat (whole ++ fraction), e - fraction.length⟩
  | [] => none
  | rest =>
    if whole.isEmpty then none
    else (exponent? rest).map fun e => ⟨Digits.toNat whole, e⟩

/-- Reads a float. -/
def float? (cs : List Char) : Option Binary64 :=
  let (negative, rest) := Digits.sign cs
  (unsignedFloat? rest).map fun d => Binary64.ofDecimal negative d.digits d.scale

/-- The number or symbol that an atom stands for. -/
def ofAtom (text : String) : Sexp :=
  match Digits.toInt64? text.toList with
  | some value => integer value
  | none =>
    match float? text.toList with
    | some value => float value
    | none => symbol text

end LispDoc.Sexp
