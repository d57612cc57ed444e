import LispDoc.Datum.Basic
import LispDoc.Number.Shortest
import LispDoc.Text.Utf8

/-!
# Documents as YAML

Collections are written in block style, one entry a line, each level two spaces in; a list that is the value of a key
stays in the column of the key. An entry after a dash starts on the line of the dash, unless a tag stands between.

A text is plain if it reads back as that text: it must not look like another scalar, start with an indicator, or hold
something that ends a plain text. Otherwise it is put in single quotes, in a literal block if it has several lines, or
in double quotes with escapes if it holds what the others cannot.
-/

namespace LispDoc.Yaml

/-! ### Characters -/

def isBreak (c : Char) : Bool :=
  c == '\n' || c == '\r' || c == '\x85' || c == '\u2028' || c == '\u2029'

/-- White space, a line break, or the end of a text. -/
def isGap : Option Char → Bool
  | none => true
  | some c => c == ' ' || c == '\t' || c == '\x00' || isBreak c

/-- The characters that may stand for themselves. -/
def isPlainChar (c : Char) : Bool :=
  let n := c.toNat
  n == 0x0A || (0x20 ≤ n && n ≤ 0x7E) || (0xA0 ≤ n && n ≤ 0xFFFD && n != 0xFEFF) || 0x10000 ≤ n

/-! ### Texts that look like other scalars -/

/-- The value of digits in a base, unless one is no digit of it or there are none. -/
def inBase? (base : Nat) (cs : List Char) : Option Nat :=
  let value (c : Char) : Nat :=
    if c.isDigit then c.toNat - '0'.toNat
    else if 'a' ≤ c && c ≤ 'f' then c.toNat - 'a'.toNat + 10
    else if 'A' ≤ c && c ≤ 'F' then c.toNat - 'A'.toNat + 10
    else 16
  if cs.isEmpty || cs.any fun c => base ≤ value c then none
  else some (cs.foldl (fun n c => base * n + value c) 0)

/-- Digits in another base after their mark. -/
def marked? : List Char → Option Nat
  | '0' :: 'x' :: cs => inBase? 16 cs
  | '0' :: 'o' :: cs => inBase? 8 cs
  | '0' :: 'b' :: cs => inBase? 2 cs
  | _ => none

/-- A whole number in another base, within 128 bits. -/
def isMarkedInteger (cs : List Char) : Bool :=
  match cs with
  | '-' :: rest => (marked? rest).any (· ≤ twoPow 127)
  | '+' :: rest => (marked? rest).any (· < twoPow 128)
  | _ => (marked? cs).any (· < twoPow 128)

/-- A decimal number without its sign: digits and the power of ten. -/
def decimal? (cs : List Char) : Option (Nat × Int) :=
  let whole := cs.takeWhile Char.isDigit
  let (fraction, rest) := match cs.dropWhile Char.isDigit with
    | '.' :: more => (more.takeWhile Char.isDigit, more.dropWhile Char.isDigit)
    | more => ([], more)
  let exponent := match rest with
    | [] => some 0
    | c :: more =>
      let (negative, ds) := Digits.sign more
      if (c == 'e' || c == 'E') && Digits.isNumber ds then some (Digits.signed negative (Digits.toNat ds)) else none
  if whole.isEmpty && fraction.isEmpty then none
  else exponent.map fun e => (Digits.toNat (whole ++ fraction), e - fraction.length)

/-- A finite decimal number with an optional sign. -/
def isDecimal (cs : List Char) : Bool :=
  (decimal? (Digits.sign cs).2).any fun d => (Binary64.ofDecimal false d.1 d.2).isFinite

/-- Digits that start with a superfluous zero, after an optional sign. -/
def hasLeadingZero (cs : List Char) : Bool :=
  match (Digits.sign cs).2 with
  | '0' :: d :: rest => (d :: rest).all Char.isDigit
  | _ => false

/-- The words that stand for nothing, for truth values and for numbers that no digits spell. -/
def words : List String :=
  ["", "null", "Null", "NULL", "~", "true", "True", "TRUE", "false", "False", "FALSE",
    ".inf", ".Inf", ".INF", "+.inf", "+.Inf", "+.INF", "-.inf", "-.Inf", "-.INF", ".nan", ".NaN", ".NAN"]

/-- Texts that would not read back as texts. -/
def looksTyped (text : String) : Bool :=
  words.contains text || isMarkedInteger text.toList || isDecimal text.toList || hasLeadingZero text.toList

/-! ### Texts that a style can hold -/

/-- Indicators that cannot start a plain text. -/
def leadingIndicators : List Char :=
  ['#', ',', '[', ']', '\x7b', '\x7d', '&', '*', '!', '|', '>', '\x27', '"', '%', '@', '\x60']

/-- Whether the first character cannot start a plain text. -/
def startsWithIndicator : List Char → Bool
  | [] => false
  | c :: cs =>
    leadingIndicators.contains c || ((c == '?' || c == ':' || c == '-') && isGap cs.head?) ||
      ['-', '-', '-'].isPrefixOf (c :: cs) || ['.', '.', '.'].isPrefixOf (c :: cs)

/-- Whether something after the character `before` would end a plain text: a colon in front of a gap, or a hash behind
one. -/
def endsPlain (before : Char) : List Char → Bool
  | [] => false
  | c :: cs => (c == ':' && isGap cs.head?) || (c == '#' && isGap (some before)) || endsPlain c cs

/-- Whether two characters that satisfy the conditions stand next to each other. -/
def adjacent (p q : Char → Bool) (cs : List Char) : Bool := (cs.zip cs.tail).any fun a => p a.1 && q a.2

def isSpace (c : Char) : Bool := c == ' '

/-- Only double quotes hold such a text: it needs escapes, or has a space in front of a line break. -/
def needsEscapes (cs : List Char) : Bool := adjacent isSpace isBreak cs || cs.any (!isPlainChar ·)

/-- Texts that single quotes can hold. -/
def fitsSingle (cs : List Char) : Bool := !needsEscapes cs && !adjacent isBreak isSpace cs

/-- Texts that a literal block can hold. -/
def fitsLiteral (cs : List Char) : Bool := !needsEscapes cs && !cs.getLast?.any isSpace

/-- Texts that can stand plain. -/
def fitsPlain (cs : List Char) : Bool :=
  fitsSingle cs && !cs.head?.any isSpace && !cs.getLast?.any isSpace && !cs.any isBreak && !startsWithIndicator cs &&
    match cs with
    | [] => false
    | c :: rest => !endsPlain c rest

/-- How a text is written. -/
inductive Style where
  | plain
  | single
  | double
  | literal
  deriving DecidableEq, Repr

/-- The style of a text. -/
def styleOf (text : String) : Style :=
  let cs := text.toList
  if cs.contains '\n' then if fitsLiteral cs then .literal else .double
  else if !looksTyped text && fitsPlain cs then .plain
  else if fitsSingle cs then .single
  else .double

/-! ### Writing texts -/

def spaces (n : Nat) : List Char := List.replicate n ' '

/-- A number in upper case hexadecimal digits, `width` of them. -/
def hexDigits (width n : Nat) : List Char :=
  let digits := (Nat.toDigits 16 n).map Char.toUpper
  List.replicate (width - digits.length) '0' ++ digits

/-- One character between double quotes. -/
def escapeChar (c : Char) : List Char :=
  match c with
  | '\x00' => ['\\', '0']
  | '\x07' => ['\\', 'a']
  | '\x08' => ['\\', 'b']
  | '\t' => ['\\', 't']
  | '\n' => ['\\', 'n']
  | '\x0b' => ['\\', 'v']
  | '\x0c' => ['\\', 'f']
  | '\r' => ['\\', 'r']
  | '\x1b' => ['\\', 'e']
  | '"' => ['\\', '"']
  | '\\' => ['\\', '\\']
  | '\x85' => ['\\', 'N']
  | '\u2028' => ['\\', 'L']
  | '\u2029' => ['\\', 'P']
  | _ =>
    if isPlainChar c then [c]
    else if c.toNat ≤ 0xFF then ['\\', 'x'] ++ hexDigits 2 c.toNat
    else if c.toNat ≤ 0xFFFF then ['\\', 'u'] ++ hexDigits 4 c.toNat
    else ['\\', 'U'] ++ hexDigits 8 c.toNat

/-- The inside of single quotes; what follows a line break is indented. -/
def singleBody (indent : Nat) (afterBreak : Bool) : List Char → List Char
  | [] => if afterBreak then spaces indent else []
  | c :: cs =>
    if isBreak c then c :: singleBody indent true cs
    else (if afterBreak then spaces indent else []) ++ (if c == '\x27' then ['\x27', '\x27'] else [c]) ++
      singleBody indent false cs

/-- The lines of a literal block; empty ones are not indented. -/
def literalBody (indent : Nat) (lineStart : Bool) : List Char → List Char
  | [] => if lineStart then [] else ['\n']
  | c :: cs =>
    if isBreak c then c :: literalBody indent true cs
    else (if lineStart then spaces indent else []) ++ c :: literalBody indent false cs

/-- What the head of a literal block says: the indentation, if the text does not show it, and what becomes of the line
breaks at the end. -/
def literalHints (cs : List Char) : List Char :=
  (if cs.head?.any fun c => isSpace c || isBreak c then ['2'] else []) ++
    match cs.reverse with
    | [] => ['-']
    | [last] => if isBreak last then ['+'] else ['-']
    | last :: before :: _ => if !isBreak last then ['-'] else if isBreak before then ['+'] else []

/-- A text without the line break after it, in a style that stays on one line. -/
def inlineText (indent : Nat) (text : String) : List Char :=
  match styleOf text with
  | .plain => text.toList
  | .single => '\x27' :: singleBody indent false text.toList ++ ['\x27']
  | _ => '"' :: text.toList.flatMap escapeChar ++ ['"']

/-- A text and the end of its line; lines of its own are indented by `indent`. -/
def textLines (indent : Nat) (text : String) : List Char :=
  match styleOf text with
  | .literal => '|' :: literalHints text.toList ++ '\n' :: literalBody indent true text.toList
  | _ => inlineText indent text ++ ['\n']

/-- A key that stands in front of its colon: short, and on one line. -/
def isSimpleKey (text : String) : Bool := !text.toList.any isBreak && text.utf8ByteSize ≤ 128

/-! ### Writing documents -/

/-- Floats are written in full from a hundred-thousandth up to ten quadrillion. -/
def floats : Layout := ⟨-5, 16, false, true, false⟩

def float (x : Binary64) : List Char :=
  if x.isFinite then floats.write x
  else if x.isInfinite then (if x.isNegative then "-.inf" else ".inf").toList
  else ".nan".toList

/-- Where a value stands: the column of the collection around it, whether that collection is a table, and whether only
indicators stand before the value on its line. -/
structure Place where
  column : Nat
  inTable : Bool
  fresh : Bool

/-- The column of a table's keys. -/
def Place.tableColumn (p : Place) : Nat := p.column + 2

/-- The column of a list's dashes. -/
def Place.listColumn (p : Place) : Nat := if p.inTable && !p.fresh then p.column else p.column + 2

/-- What separates a collection from what stands before it. -/
def Place.opening (p : Place) (column : Nat) : List Char := if p.fresh then [' '] else '\n' :: spaces column

mutual
/-- A value, from the end of what stands before it to the end of its last line. -/
def node (p : Place) : Datum → List Char
  | .null => " null\n".toList
  | .bool value => (if value then " true\n" else " false\n").toList
  | .integer value => ' ' :: Digits.ofInt value ++ ['\n']
  | .float value => ' ' :: float value ++ ['\n']
  | .text text => ' ' :: textLines (p.column + 2) text
  | .tagged tag payload => ' ' :: '!' :: tag.toList ++ node { p with fresh := false } payload
  | .list [] => " []\n".toList
  | .list (item :: items) =>
    p.opening p.listColumn ++ '-' :: node ⟨p.listColumn, false, true⟩ item ++ itemLines p.listColumn items
  | .table [] => " \x7b\x7d\n".toList
  | .table ((key, value) :: entries) =>
    p.opening p.tableColumn ++ entry p.tableColumn key value ++ entryLines p.tableColumn entries

/-- A key and its value. -/
def entry (column : Nat) (key : String) (value : Datum) : List Char :=
  if isSimpleKey key then inlineText (column + 2) key ++ ':' :: node ⟨column, true, false⟩ value
  else '?' :: ' ' :: textLines (column + 2) key ++ spaces column ++ ':' :: node ⟨column, true, true⟩ value

/-- Further items of a list. -/
def itemLines (column : Nat) : List Datum → List Char
  | [] => []
  | item :: items => spaces column ++ '-' :: node ⟨column, false, true⟩ item ++ itemLines column items

/-- Further entries of a table. -/
def entryLines (column : Nat) : List (String × Datum) → List Char
  | [] => []
  | (key, value) :: entries => spaces column ++ entry column key value ++ entryLines column entries
end

/-- A whole document. -/
def document : Datum → List Char
  | .table (e :: entries) => entryLines 0 (e :: entries)
  | .list (item :: items) => itemLines 0 (item :: items)
  | scalar => (node ⟨0, false, true⟩ scalar).tail

end LispDoc.Yaml

namespace LispDoc

/-- The document as YAML. -/
def Datum.toYaml (d : Datum) : String := String.ofList (Yaml.document d)

end LispDoc
