/-!
# White space

White space is the Unicode property of that name. Texts are trimmed, cut into words and collapsed with respect to it.
-/

namespace LispDoc.Text

/-- White space in every script: the ASCII controls from tab to carriage return, the space, next line, the no-break,
ogham, typographic and ideographic spaces, and the line and paragraph separators. -/
def isBlank (c : Char) : Bool :=
  let n := c.toNat
  (9 ≤ n && n ≤ 13) || n == 0x20 || n == 0x85 || n == 0xA0 || n == 0x1680 || (0x2000 ≤ n && n ≤ 0x200A) ||
    n == 0x2028 || n == 0x2029 || n == 0x202F || n == 0x205F || n == 0x3000

/-- Without the white space in front. -/
def trimStart (cs : List Char) : List Char := cs.dropWhile isBlank

/-- Without the white space at the end. -/
def trimEnd (cs : List Char) : List Char := (cs.reverse.dropWhile isBlank).reverse

/-- Without the white space at either end. -/
def trim (cs : List Char) : List Char := trimEnd (trimStart cs)

/-- The words of a text whose first characters, newest first, are already known to be `word`. -/
def wordsAfter (word : List Char) : List Char → List (List Char)
  | [] => if word.isEmpty then [] else [word.reverse]
  | c :: cs =>
    if isBlank c then
      if word.isEmpty then wordsAfter [] cs else word.reverse :: wordsAfter [] cs
    else wordsAfter (c :: word) cs

/-- The maximal runs without white space, in order. -/
def words (cs : List Char) : List (List Char) := wordsAfter [] cs

/-- The words of a text joined by single spaces. -/
def oneLine (text : String) : String :=
  String.ofList (List.intercalate [' '] (words text.toList))

/-- `collapse` for a text that follows white space (`true`) or not. -/
def collapseAfter : Bool → List Char → List Char
  | _, [] => []
  | afterBlank, c :: cs =>
    if isBlank c then
      if afterBlank then collapseAfter true cs else ' ' :: collapseAfter true cs
    else c :: collapseAfter false cs

/-- Every run of white space becomes one space; nothing is trimmed. -/
def collapse (cs : List Char) : List Char := collapseAfter false cs

/-- The pieces between the separators `sep`; there is one more piece than separators. -/
def splitAt (sep : Char) : List Char → List (List Char)
  | [] => [[]]
  | c :: cs =>
    if c == sep then [] :: splitAt sep cs
    else match splitAt sep cs with
      | [] => [[c]]
      | piece :: pieces => (c :: piece) :: pieces

theorem splitAt_ne_nil (sep : Char) (cs : List Char) : splitAt sep cs ≠ [] := by
  cases cs with
  | nil => simp [splitAt]
  | cons c cs => simp only [splitAt]; split <;> (try split) <;> simp

/-- The pieces joined by the separator give the text back. -/
theorem intercalate_splitAt (sep : Char) (cs : List Char) : List.intercalate [sep] (splitAt sep cs) = cs := by
  induction cs with
  | nil => rfl
  | cons c cs ih =>
    simp only [splitAt]
    split
    · rename_i h
      cases hs : splitAt sep cs with
      | nil => exact absurd hs (splitAt_ne_nil sep cs)
      | cons p ps => rw [hs] at ih; simp_all [List.intercalate]
    · cases hs : splitAt sep cs with
      | nil => exact absurd hs (splitAt_ne_nil sep cs)
      | cons p ps =>
        rw [hs] at ih
        cases ps <;> simp_all [List.intercalate]

/-- The number of lines: newlines end lines, and a text after the last newline is one more line. -/
def lineCount (cs : List Char) : Nat :=
  cs.count '\n' + (match cs.getLast? with | none => 0 | some c => if c == '\n' then 0 else 1)

end LispDoc.Text
