import LispDoc.Number.Shortest
import LispDoc.Text.LetterCase

/-!
# Values of settings

What a settings file or an override may give. A setting of one type is read from values of other types where that makes
sense: a truth value from a number or from a word such as `on`, a number from a truth value or from its digits, a text
from any scalar.
-/

namespace LispDoc

inductive Setting where
  /-- a place that has been reached and not been set -/
  | nil
  | bool (value : Bool)
  | integer (value : Int)
  | float (value : Binary64)
  | text (text : String)
  | list (items : List Setting)
  | table (entries : List (String × Setting))
  deriving Repr, Inhabited

namespace Setting

/-- The words for true, without the digit. -/
def trueWords : List String := ["true", "on", "yes"]

/-- The words for false, without the digit. -/
def falseWords : List String := ["false", "off", "no"]

/-- A truth value. -/
def toBool? : Setting → Option Bool
  | bool value => some value
  | integer value => some (value != 0)
  | float value => some (!value.isZero)
  | text t =>
    let word := Text.toLower t
    if word == "1" || trueWords.contains word then some true
    else if word == "0" || falseWords.contains word then some false
    else none
  | _ => none

/-- The digits of a word of 64 bits, which may have a plus sign. -/
def digitsToNat? (cs : List Char) : Option Nat :=
  let ds := match cs with
    | '+' :: rest => rest
    | _ => cs
  if Digits.isNumber ds && Digits.toNat ds < Digits.wordBound then some (Digits.toNat ds) else none

/-- The nearest whole number, a half going up, within the words of 64 bits. -/
def roundToNat (x : Binary64) : Nat :=
  if !x.isFinite then if x.isInfinite && !x.isNegative then Digits.wordBound - 1 else 0
  else if x.isNegative then 0
  else min (Digits.wordBound - 1) ((2 * x.ratio.1 + x.ratio.2) / (2 * x.ratio.2))

/-- A whole number that is not negative. -/
def toNat? : Setting → Option Nat
  | integer value => if 0 ≤ value then some value.toNat else none
  | bool value => some (if value then 1 else 0)
  | float value => some (roundToNat value)
  | text t =>
    let word := Text.toLower t
    if trueWords.contains word then some 1
    else if falseWords.contains word then some 0
    else digitsToNat? t.toList
  | _ => none

/-- Floats in texts are written in full, however large or small. -/
def floatLayout : Layout := ⟨-400, 400, false, false, true⟩

def floatText (x : Binary64) : List Char :=
  if x.isFinite then floatLayout.write x
  else if x.isInfinite then (if x.isNegative then "-inf" else "inf").toList
  else "NaN".toList

/-- A text. -/
def toText? : Setting → Option String
  | text t => some t
  | bool value => some (if value then "true" else "false")
  | integer value => some (String.ofList (Digits.ofInt value))
  | float value => some (String.ofList (floatText value))
  | _ => none

/-- A list of texts. -/
def toTexts? : Setting → Option (List String)
  | list items => items.mapM toText?
  | _ => none

end Setting

end LispDoc
