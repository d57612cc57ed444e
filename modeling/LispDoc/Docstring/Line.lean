import LispDoc.Text.Blank
import LispDoc.Text.Utf8

/-!
# Lines of a docstring

Tabs are expanded and white space at the end of a line is dropped when a docstring is cut into lines, so that the first
character of a line tells its kind. A line keeps its number and the byte offset at which it starts in the docstring.

An indented region runs up to the next line of text. Blank lines at its end do not belong to it, and its lines lose the
indentation that they share.
-/

namespace LispDoc

structure Line where
  /-- counted from one -/
  number : Nat
  /-- the byte at which the line starts -/
  offset : Nat
  text : List Char
  deriving DecidableEq, Repr

inductive LineKind where
  | blank
  | indented
  | text
  deriving DecidableEq, Repr

namespace Line

def kind (line : Line) : LineKind :=
  match line.text with
  | [] => .blank
  | c :: _ => if c = ' ' then .indented else .text

def isBlank (line : Line) : Bool := line.kind == .blank

def isIndented (line : Line) : Bool := line.kind == .indented

def isText (line : Line) : Bool := line.kind == .text

/-- The number of spaces in front. -/
def indent (line : Line) : Nat := (line.text.takeWhile (· == ' ')).length

/-- The line without its first `n` characters. -/
def drop (n : Nat) (line : Line) : Line := { line with text := line.text.drop n }

/-- Tab stops are this far apart unless something else is asked for. -/
def defaultTabWidth : Nat := 8

/-- Expands the tabs of a text that starts at `column`. -/
def expandTabsFrom (width column : Nat) : List Char → List Char
  | [] => []
  | c :: cs =>
    if c = '\t' then
      List.replicate (width - column % width) ' ' ++ expandTabsFrom width (column + (width - column % width)) cs
    else c :: expandTabsFrom width (column + 1) cs

/-- Replaces tabs by spaces up to the next multiple of `width`; a width of zero counts as one. -/
def expandTabs (width : Nat) (cs : List Char) : List Char := expandTabsFrom (max width 1) 0 cs

/-- The number of bytes that a text can have. -/
def maxBytes : Nat := 0x7FFFFFFFFFFFFFFF

/-- Whether a text still fits when the tabs of its rest are expanded, `size` bytes and `column` columns into it. -/
def fitsFrom (width column size : Nat) : List Char → Bool
  | [] => true
  | c :: cs =>
    if c = '\t' then
      let spaces := width - column % width
      size + spaces ≤ maxBytes && fitsFrom width (column + spaces) (size + spaces) cs
    else fitsFrom width (column + 1) (size + c.utf8Size) cs

/-- Whether each line of a text fits when its tabs are expanded. -/
def fits (width : Nat) (cs : List Char) : Bool := (Text.splitAt '\n' cs).all (fitsFrom (max width 1) 0 0)

/-- What is said of a text that does not fit. -/
def overflowMessage : String := "capacity overflow"

/-- Numbers lines and finds their offsets; `number` and `offset` are those of the first. -/
def numbered (width number offset : Nat) : List (List Char) → List Line
  | [] => []
  | raw :: rest =>
    ⟨number, offset, Text.trimEnd (expandTabs width raw)⟩ ::
      numbered width (number + 1) (offset + Text.byteSize raw + 1) rest

/-- The lines of a docstring. A newline at the end starts no further line. -/
def split (width : Nat) (cs : List Char) : List Line :=
  let lines := numbered width 1 0 (Text.splitAt '\n' cs)
  if cs.getLast? = some '\n' then lines.dropLast else lines

/-- The indentation shared by the lines that are not blank. -/
def commonIndent (lines : List Line) : Nat := (((lines.filter (!·.isBlank)).map indent).min?).getD 0

/-- Removes the indentation shared by the lines that are not blank. -/
def dedent (lines : List Line) : List Line := lines.map (drop (commonIndent lines))

end Line

/-- An indented region and what follows it. -/
structure Region where
  /-- the lines without blank ones at the end and without their common indentation -/
  lines : List Line
  /-- whether a blank line or the end of the text follows -/
  blankFinish : Bool
  /-- the lines after the region -/
  rest : List Line

namespace Region

/-- The lines without blank ones at the end. -/
def dropTrailingBlank (lines : List Line) : List Line := (lines.reverse.dropWhile Line.isBlank).reverse

/-- The region in front of the next line of text. -/
def read (lines : List Line) : Region :=
  let taken := lines.takeWhile (!·.isText)
  let rest := lines.dropWhile (!·.isText)
  ⟨Line.dedent (dropTrailingBlank taken), rest.isEmpty || taken.getLast?.any Line.isBlank, rest⟩

end Region

end LispDoc
