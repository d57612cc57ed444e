import LispDoc.Text.Blank
import LispDoc.Text.Utf8

/-!
# Tokens of Lisp source

Source is cut into chunks that follow each other without gaps: layout (white space and comments), tokens, and pieces
that are neither. `Chunk.next` cuts the first chunk off, `Chunk.scan` all of them, and `tokenize` keeps what is not
layout together with its place in the source.

* A string runs to the next quote that no backslash precedes; its value has the escapes resolved.
* A question mark and a character, or a question mark, a backslash and a character, is a character literal unless a
  longer run of constituents starts there, which is an atom: `?a` is a character and `?ab` an atom. A run of the same
  length is an atom too if white space beyond ASCII follows it.
* `#` is a constituent and the quote is not, so `#'car` is the atom `#`, a quote and the atom `car`.
-/

namespace LispDoc

/-- A half-open range of byte offsets. -/
structure Span where
  start : Nat
  stop : Nat
  deriving DecidableEq, Repr

inductive Token where
  | openParen
  | closeParen
  | openBracket
  | closeBracket
  | quote
  | backquote
  | comma
  | commaAt
  /-- a string, escapes resolved -/
  | string (text : String)
  | character (code : Char)
  /-- a symbol or a number -/
  | atom (text : String)
  deriving DecidableEq, Repr

namespace Token

/-- How a token is named in messages. -/
def describe : Token → String
  | openParen => "`(`"
  | closeParen => "`)`"
  | openBracket => "`[`"
  | closeBracket => "`]`"
  | quote => "`'`"
  | backquote => "backquote"
  | comma => "`,`"
  | commaAt => "`,@`"
  | string _ => "string"
  | character _ => "character"
  | atom text => "`" ++ text ++ "`"

/-- Characters that end an atom besides white space. -/
def isDelimiter (c : Char) : Bool :=
  c == '"' || c == '\x27' || c == ';' || c == '(' || c == ')' || c == '[' || c == ']' || c == '\x60' || c == ','

/-- Characters that atoms are made of. -/
def isConstituent (c : Char) : Bool := !Text.isBlank c && !isDelimiter c

/-- The white space that may stand between tokens. -/
def isLayoutSpace (c : Char) : Bool := c == ' ' || c == '\t' || c == '\r' || c == '\n' || c == '\x0c'

/-- What a backslash and `c` stand for in a string; a newline is continued over. -/
def escaped (c : Char) : List Char :=
  match c with
  | 'n' => ['\n']
  | 't' => ['\t']
  | 'r' => ['\r']
  | 'e' => ['\x1b']
  | '\n' => []
  | _ => [c]

/-- Resolves the escapes of a string. A backslash at the very end stays. -/
def unescape : List Char → List Char
  | [] => []
  | c :: cs =>
    if c = '\\' then
      match cs with
      | [] => ['\\']
      | d :: ds => escaped d ++ unescape ds
    else c :: unescape cs

/-- What a backslash and `c` stand for in a character literal. -/
def escapedCharacter (c : Char) : Char :=
  match c with
  | 'n' => '\n'
  | 't' => '\t'
  | 'r' => '\r'
  | 'e' => '\x1b'
  | 's' => ' '
  | _ => c

/-- The inside of a string whose opening quote has been read, and what follows its closing quote. -/
def stringBody? : List Char → Option (List Char × List Char)
  | [] => none
  | c :: cs =>
    if c = '"' then some ([], cs)
    else if c = '\\' then
      match cs with
      | [] => none
      | d :: ds => (stringBody? ds).map fun r => (c :: d :: r.1, r.2)
    else (stringBody? cs).map fun r => (c :: r.1, r.2)

/-- Everything but a backslash at the end that escapes nothing, and that backslash. -/
def beforeLoneBackslash : List Char → List Char × List Char
  | [] => ([], [])
  | c :: cs =>
    if c = '\\' then
      match cs with
      | [] => ([], [c])
      | d :: ds => (c :: d :: (beforeLoneBackslash ds).1, (beforeLoneBackslash ds).2)
    else (c :: (beforeLoneBackslash cs).1, (beforeLoneBackslash cs).2)

/-- The character literal whose question mark has been read: its code and its text after the question mark. -/
def character? : List Char → Option (Char × List Char)
  | [] => none
  | c :: cs =>
    if c = '\\' then
      match cs with
      | [] => none
      | d :: _ => some (escapedCharacter d, [c, d])
    else if Text.isBlank c then none
    else some (c, [c])

end Token

/-- A piece of source. -/
inductive Chunk where
  /-- white space or a comment -/
  | layout (text : List Char)
  | token (token : Token) (text : List Char)
  /-- text that no token starts with -/
  | junk (text : List Char)
  deriving DecidableEq, Repr

namespace Chunk

/-- The source text of a chunk. -/
def text : Chunk → List Char
  | layout text => text
  | token _ text => text
  | junk text => text

/-- The tokens of one character that nothing can extend. -/
def punctuation? (c : Char) : Option Token :=
  match c with
  | '(' => some .openParen
  | ')' => some .closeParen
  | '[' => some .openBracket
  | ']' => some .closeBracket
  | '\x27' => some .quote
  | '\x60' => some .backquote
  | _ => none

/-- The chunk that a comma starts. -/
def nextComma (cs : List Char) : Chunk × List Char :=
  if cs.head? = some '@' then (token .commaAt [',', '@'], cs.tail) else (token .comma [','], cs)

/-- The chunk that a quote starts: a string, or junk where no other quote closes it. -/
def nextString (cs : List Char) : Chunk × List Char :=
  match Token.stringBody? cs with
  | some (body, rest) => (token (.string (String.ofList (Token.unescape body))) ('"' :: body ++ ['"']), rest)
  | none => (junk ('"' :: (Token.beforeLoneBackslash cs).1), (Token.beforeLoneBackslash cs).2)

/-- The longest atom that starts with `c`. -/
def nextAtom (c : Char) (cs : List Char) : Chunk × List Char :=
  let text := c :: cs.takeWhile Token.isConstituent
  (token (.atom (String.ofList text)) text, cs.dropWhile Token.isConstituent)

/-- Whether white space beyond ASCII comes first. -/
def startsWithWideBlank (cs : List Char) : Bool := cs.head?.any fun c => Text.isBlank c && 128 ≤ c.toNat

/-- Whether `length` characters at the start make an atom rather than a character literal: the run of constituents is
longer, or as long and followed by white space beyond ASCII. -/
def atomWins (length : Nat) (cs : List Char) : Bool :=
  let run := (cs.takeWhile Token.isConstituent).length
  length < run || (length == run && startsWithWideBlank (cs.drop length))

/-- The chunk that a question mark starts: a character, unless the atom that starts there wins. -/
def nextCharacter (cs : List Char) : Chunk × List Char :=
  match Token.character? cs with
  | some (code, tail) =>
    if atomWins tail.length cs then nextAtom '?' cs
    else (token (.character code) ('?' :: tail), cs.drop tail.length)
  | none => nextAtom '?' cs

/-- The chunk at the start of `c :: cs`, and what follows it. -/
def next (c : Char) (cs : List Char) : Chunk × List Char :=
  if Token.isLayoutSpace c then (layout (c :: cs.takeWhile Token.isLayoutSpace), cs.dropWhile Token.isLayoutSpace)
  else if c = ';' then (layout (c :: cs.takeWhile (· != '\n')), cs.dropWhile (· != '\n'))
  else
    match punctuation? c with
    | some t => (token t [c], cs)
    | none =>
      if c = ',' then nextComma cs
      else if c = '"' then nextString cs
      else if c = '?' then nextCharacter cs
      else if Text.isBlank c then (junk [c], cs)
      else nextAtom c cs

theorem stringBody?_length {cs : List Char} {r : List Char × List Char} (h : Token.stringBody? cs = some r) :
    r.2.length < cs.length := by
  fun_induction Token.stringBody? cs generalizing r with
  | case1 => simp at h
  | case2 cs => simp at h; simp [← h]
  | case3 => simp at h
  | case4 d ds _ ih =>
    obtain ⟨q, hq, rfl⟩ := Option.map_eq_some_iff.1 h
    have := ih hq
    simp only [List.length_cons]; omega
  | case5 c cs _ _ ih =>
    obtain ⟨q, hq, rfl⟩ := Option.map_eq_some_iff.1 h
    have := ih hq
    simp only [List.length_cons]; omega

theorem beforeLoneBackslash_length (cs : List Char) : (Token.beforeLoneBackslash cs).2.length ≤ cs.length := by
  fun_induction Token.beforeLoneBackslash cs <;> simp_all <;> omega

private theorem length_dropWhile_le (p : Char → Bool) (cs : List Char) : (cs.dropWhile p).length ≤ cs.length :=
  (List.dropWhile_sublist p).length_le

theorem nextComma_length (cs : List Char) : (nextComma cs).2.length ≤ cs.length := by
  unfold nextComma; split <;> simp

theorem nextString_length (cs : List Char) : (nextString cs).2.length ≤ cs.length := by
  unfold nextString
  split
  · next h => exact Nat.le_of_lt (stringBody?_length h)
  · exact beforeLoneBackslash_length cs

theorem nextAtom_length (c : Char) (cs : List Char) : (nextAtom c cs).2.length ≤ cs.length :=
  length_dropWhile_le _ cs

theorem nextCharacter_length (cs : List Char) : (nextCharacter cs).2.length ≤ cs.length := by
  unfold nextCharacter
  split
  · split
    · exact nextAtom_length _ cs
    · simp
  · exact nextAtom_length _ cs

/-- A chunk takes at least one character. -/
theorem next_length (c : Char) (cs : List Char) : (next c cs).2.length ≤ cs.length := by
  unfold next
  split
  · exact length_dropWhile_le _ cs
  split
  · exact length_dropWhile_le _ cs
  split
  · exact Nat.le_refl _
  split
  · exact nextComma_length cs
  split
  · exact nextString_length cs
  split
  · exact nextCharacter_length cs
  split
  · exact Nat.le_refl _
  · exact nextAtom_length c cs

/-- All chunks of a source text. -/
def scan : List Char → List Chunk
  | [] => []
  | c :: cs => (next c cs).1 :: scan (next c cs).2
termination_by cs => cs.length
decreasing_by exact Nat.lt_succ_of_le (next_length c cs)

end Chunk

/-- A token with its place, or the place of a piece that is no token. -/
inductive Lexeme where
  | token (token : Token) (span : Span)
  | junk (span : Span)
  deriving DecidableEq, Repr

namespace Lexeme

/-- The place in the source. -/
def span : Lexeme → Span
  | token _ span => span
  | junk span => span

/-- The chunks other than layout, with their places; the first chunk starts at `offset`. -/
def ofChunks (offset : Nat) : List Chunk → List Lexeme
  | [] => []
  | chunk :: chunks =>
    let stop := offset + Text.byteSize chunk.text
    match chunk with
    | .layout _ => ofChunks stop chunks
    | .token t _ => .token t ⟨offset, stop⟩ :: ofChunks stop chunks
    | .junk _ => .junk ⟨offset, stop⟩ :: ofChunks stop chunks

end Lexeme

/-- The tokens of a source text, and the pieces that are none, in order. -/
def tokenize (source : String) : List Lexeme := Lexeme.ofChunks 0 (Chunk.scan source.toList)

end LispDoc
