import LispDoc.Json.Basic
import LispDoc.Number.Binary64

/-!
# Reading JSON

`Json.parse` reads a text that holds one value. Number literals are checked for their shape and kept;
`Json.toInt64?` and `Json.toBinary64?` give them a value when one is asked for.
-/

namespace LispDoc.Json

/-- White space between tokens. -/
def isSpace (c : Char) : Bool := c == ' ' || c == '\t' || c == '\n' || c == '\r'

def skipSpace (cs : List Char) : List Char := cs.dropWhile isSpace

/-- The value of a hexadecimal digit of either case. -/
def hexValue? (c : Char) : Option Nat :=
  if '0' ≤ c && c ≤ '9' then some (c.toNat - '0'.toNat)
  else if 'a' ≤ c && c ≤ 'f' then some (c.toNat - 'a'.toNat + 10)
  else if 'A' ≤ c && c ≤ 'F' then some (c.toNat - 'A'.toNat + 10)
  else none

/-- Four hexadecimal digits. -/
def unit? : List Char → Option Nat
  | a :: b :: c :: d :: _ => do
    return ((← hexValue? a) * 16 + (← hexValue? b)) * 256 + (← hexValue? c) * 16 + (← hexValue? d)
  | _ => none

/-- The trailing surrogate that a second escape gives. -/
def trailing? : List Char → Option Nat
  | '\\' :: 'u' :: cs => (unit? cs).filter fun n => 0xDC00 ≤ n && n ≤ 0xDFFF
  | _ => none

/-- The character that `\u` and the digits in front of `cs` stand for, with the number of characters used. A leading
surrogate needs a trailing one in a second escape; one that is alone stands for no character. -/
def unicodeEscape? (cs : List Char) : Option (Option Char × Nat) := do
  let first ← unit? cs
  if first < 0xD800 || 0xDFFF < first then return (some (Char.ofNat first), 4)
  else
    match (trailing? (cs.drop 4)).filter fun _ => first < 0xDC00 with
    | some second => return (some (Char.ofNat (0x10000 + (first - 0xD800) * 0x400 + (second - 0xDC00))), 10)
    | none => return (none, 4)

/-- The character that an escape stands for, its backslash already read, with the number of characters used. -/
def escape? : List Char → Option (Option Char × Nat)
  | '"' :: _ => some (some '"', 1)
  | '\\' :: _ => some (some '\\', 1)
  | '/' :: _ => some (some '/', 1)
  | 'b' :: _ => some (some '\x08', 1)
  | 'f' :: _ => some (some '\x0c', 1)
  | 'n' :: _ => some (some '\n', 1)
  | 'r' :: _ => some (some '\r', 1)
  | 't' :: _ => some (some '\t', 1)
  | 'u' :: cs => (unicodeEscape? cs).map fun r => (r.1, r.2 + 1)
  | _ => none

/-- A string whose opening quote has been read, and what follows its closing quote. There is no text if one of its
escapes stands for no character. -/
def stringTail? : List Char → Option (Option (List Char) × List Char)
  | [] => none
  | c :: cs =>
    if c = '"' then some (some [], cs)
    else if c = '\\' then
      match escape? cs with
      | none => none
      | some (d, used) => (stringTail? (cs.drop used)).map fun r => (d.bind fun d => r.1.map (d :: ·), r.2)
    else if c.toNat < 0x20 then none
    else (stringTail? cs).map fun r => (r.1.map (c :: ·), r.2)
termination_by cs => cs.length
decreasing_by
  · simp only [List.length_drop, List.length_cons]; omega
  · simp

/-- The digits at the front, at least one, and the rest. -/
def digits? (cs : List Char) : Option (List Char × List Char) :=
  if (cs.takeWhile Char.isDigit).isEmpty then none
  else some (cs.takeWhile Char.isDigit, cs.dropWhile Char.isDigit)

/-- The whole part of a number: no zero in front of other digits. -/
def whole? (cs : List Char) : Option (List Char × List Char) := do
  let (ds, rest) ← digits? cs
  if 1 < ds.length && ds.head? = some '0' then none else some (ds, rest)

/-- A fraction, which may be missing. -/
def fraction? : List Char → Option (List Char × List Char)
  | '.' :: cs => (digits? cs).map fun r => ('.' :: r.1, r.2)
  | cs => some ([], cs)

/-- The sign of an exponent, which may be missing. -/
def exponentSign : List Char → List Char × List Char
  | '+' :: cs => (['+'], cs)
  | '-' :: cs => (['-'], cs)
  | cs => ([], cs)

/-- An exponent part, which may be missing. -/
def exponentPart? : List Char → Option (List Char × List Char)
  | [] => some ([], [])
  | c :: cs =>
    if c = 'e' || c = 'E' then
      (digits? (exponentSign cs).2).map fun r => (c :: (exponentSign cs).1 ++ r.1, r.2)
    else some ([], c :: cs)

/-- A number literal at the front, and the rest. -/
def number? (cs : List Char) : Option (List Char × List Char) := do
  let (sign, rest) := match cs with
    | '-' :: rest => (['-'], rest)
    | _ => ([], cs)
  let (whole, rest) ← whole? rest
  let (fraction, rest) ← fraction? rest
  let (exponent, rest) ← exponentPart? rest
  return (sign ++ whole ++ fraction ++ exponent, rest)

/-- A word of the language at the front, and the rest. -/
def word? (word : String) (cs : List Char) : Option (List Char) :=
  if word.toList.isPrefixOf cs then some (cs.drop word.length) else none

mutual
/-- A value at the front of the text, and the rest. The fuel bounds the number of characters read. -/
def value? : Nat → List Char → Option (Json × List Char)
  | 0, _ => none
  | fuel + 1, cs =>
    match skipSpace cs with
    | [] => none
    | c :: rest =>
      match c with
      | '"' => (stringTail? rest).map fun r => (r.1.elim unreadable fun text => string (String.ofList text), r.2)
      | '[' =>
        match skipSpace rest with
        | ']' :: rest => some (array [], rest)
        | _ => (items? fuel rest).map fun r => (array r.1, r.2)
      | '\x7b' =>
        match skipSpace rest with
        | '\x7d' :: rest => some (object [], rest)
        | _ => (members? fuel rest).map fun r => (r.1.elim unreadable object, r.2)
      | 'n' => (word? "null" (c :: rest)).map (null, ·)
      | 't' => (word? "true" (c :: rest)).map (bool true, ·)
      | 'f' => (word? "false" (c :: rest)).map (bool false, ·)
      | _ => (number? (c :: rest)).map fun r => (number (String.ofList r.1), r.2)

/-- The items of an array, at least one, up to its closing bracket. -/
def items? : Nat → List Char → Option (List Json × List Char)
  | 0, _ => none
  | fuel + 1, cs =>
    match value? fuel cs with
    | none => none
    | some (item, rest) =>
      match skipSpace rest with
      | ',' :: rest => (items? fuel rest).map fun r => (item :: r.1, r.2)
      | ']' :: rest => some ([item], rest)
      | _ => none

/-- The members of an object, at least one, up to its closing brace. There are none if a key has no text. -/
def members? : Nat → List Char → Option (Option (List (String × Json)) × List Char)
  | 0, _ => none
  | fuel + 1, cs =>
    match skipSpace cs with
    | '"' :: rest =>
      match stringTail? rest with
      | none => none
      | some (key, rest) =>
        match skipSpace rest with
        | ':' :: rest =>
          match value? fuel rest with
          | none => none
          | some (value, rest) =>
            let first := key.map fun key => (String.ofList key, value)
            match skipSpace rest with
            | ',' :: rest => (members? fuel rest).map fun r => (first.bind fun m => r.1.map (m :: ·), r.2)
            | '\x7d' :: rest => some (first.map ([·]), rest)
            | _ => none
        | _ => none
    | _ => none
end

/-- Reads a text that holds one value and white space. -/
def parse (text : String) : Option Json :=
  match value? (2 * text.toList.length + 2) text.toList with
  | some (value, rest) => if (skipSpace rest).isEmpty then some value else none
  | none => none

/-- A number literal taken apart: the digits before the point, those after it, and the exponent. -/
structure NumberParts where
  negative : Bool
  whole : List Char
  fraction : Option (List Char)
  exponent : Option (Bool × List Char)

/-- Takes a number literal apart. -/
def numberParts (literal : List Char) : NumberParts :=
  let (negative, rest) := match literal with
    | '-' :: rest => (true, rest)
    | _ => (false, literal)
  let afterWhole := rest.dropWhile Char.isDigit
  let (fraction, afterFraction) := match afterWhole with
    | '.' :: cs => (some (cs.takeWhile Char.isDigit), cs.dropWhile Char.isDigit)
    | cs => (none, cs)
  let exponent := match afterFraction with
    | [] => none
    | _ :: cs => some (Digits.sign cs)
  ⟨negative, rest.takeWhile Char.isDigit, fraction, exponent⟩

/-- A whole number: no fraction, no exponent, and no minus sign in front of zero. -/
def toInt? : Json → Option Int
  | number literal =>
    let parts := numberParts literal.toList
    let n := Digits.toNat parts.whole
    if parts.fraction.isSome || parts.exponent.isSome then none
    else if parts.negative && n == 0 then none
    else some (Digits.signed parts.negative n)
  | _ => none

/-- A whole number within a signed 64 bit word. -/
def toInt64? (value : Json) : Option Int64 :=
  value.toInt?.bind fun n => if Digits.fitsInt64 n then some (Int64.ofInt n) else none

/-- A whole number that is not negative and less than `bound`. -/
def toNatBelow? (bound : Nat) (value : Json) : Option Nat :=
  value.toInt?.bind fun n => if 0 ≤ n && n.toNat < bound then some n.toNat else none

/-- Appends digits to a number as long as it fits in a 64 bit word; the digits left over come with it. -/
def takeDigits (significand : Nat) : List Char → Nat × List Char
  | [] => (significand, [])
  | c :: cs =>
    if significand * 10 + Digits.value c < Digits.wordBound then takeDigits (significand * 10 + Digits.value c) cs
    else (significand, c :: cs)

/-- The largest power of ten that one scaling step uses. -/
def maxScale : Nat := 308

/-- Divides by powers of ten until the scale is small enough for one step. -/
def scaleDown : Nat → Binary64 → Nat → Binary64
  | 0, x, _ => x
  | fuel + 1, x, scale =>
    if scale ≤ maxScale then x.div (Binary64.ofDecimal false 1 scale)
    else if x.isZero then x
    else scaleDown fuel (x.div (Binary64.ofDecimal false 1 maxScale)) (scale - maxScale)

/-- `significand · 10 ^ scale`, with one rounding for the significand and one for each scaling step; `none` when it is
too large. -/
def scaled? (significand : Nat) (scale : Int) : Option Binary64 :=
  let x := Binary64.ofNat significand
  if 0 ≤ scale then
    if scale.toNat ≤ maxScale then
      let y := x.mul (Binary64.ofDecimal false 1 scale)
      if y.isFinite then some y else none
    else if x.isZero then some x else none
  else some (scaleDown ((-scale).toNat / maxScale + 2) x (-scale).toNat)

/-- Any number as a float. The digits that fit in 64 bits count and the others only shift the point. -/
def toBinary64? : Json → Option Binary64
  | number literal =>
    let parts := numberParts literal.toList
    let (wholeDigits, wholeLeft) := takeDigits 0 parts.whole
    let fraction := parts.fraction.getD []
    let (significand, fractionLeft) := takeDigits wholeDigits fraction
    let shift : Int := (wholeLeft.length : Int) - (fraction.length - fractionLeft.length : Nat)
    let (negativeExponent, exponentDigits) := parts.exponent.getD (false, [])
    let exponent := Digits.toNat exponentDigits
    let magnitude :=
      if 0x80000000 ≤ exponent then
        if significand != 0 && !negativeExponent then none else some (Binary64.ofNat 0)
      else scaled? significand (shift + Digits.signed negativeExponent exponent)
    magnitude.map fun x => if parts.negative then x.negate else x
  | _ => none

end LispDoc.Json
