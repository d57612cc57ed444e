import LispDoc.Sexp.Atom

/-!
# Reading S-expressions

The reader goes through the tokens once, with the lists, vectors and quote marks that are still open on a stack. A
token that cannot follow the ones before it is an error at its place, and so is the end of the text while something is
open. A quoted form keeps its quote; backquote, comma and splice become lists of two headed by the mark.

A file is read as one list: its text is wrapped in parentheses on lines of their own, and lines of errors are counted
without the wrapping.
-/

namespace LispDoc

/-- What is wrong with a text. -/
inductive Fault where
  | unrecognized (text : String)
  | unexpected (token : Token)
  | endOfInput
  deriving DecidableEq, Repr

/-- The wording of a fault. -/
def Fault.message : Fault → String
  | unrecognized text => "unrecognized input `" ++ text ++ "`"
  | unexpected token => "unexpected " ++ token.describe
  | endOfInput => "unexpected end of input"

/-- A fault with its place in the text handed to the reader, and its line in the text that the user wrote. -/
structure ReadError where
  fault : Fault
  span : Span
  line : Nat
  deriving DecidableEq, Repr

/-- The wording of a read error. -/
def ReadError.message (e : ReadError) : String :=
  "Syntax error at line " ++ String.ofList (Digits.ofNat e.line) ++ ": " ++ e.fault.message

namespace Reader

/-- The marks that apply to the form after them. -/
inductive Mark where
  | quote
  | backquote
  | comma
  | splice
  deriving DecidableEq, Repr

/-- The form that a mark makes of the one after it. -/
def Mark.apply : Mark → Sexp → Sexp
  | quote, form => .quoted form
  | backquote, form => .list [.symbol "`", form]
  | comma, form => .list [.symbol ",", form]
  | splice, form => .list [.symbol ",@", form]

/-- Something that has been opened and not yet closed; items are held newest first. -/
inductive Frame where
  | list (items : List Sexp)
  | vector (items : List Sexp)
  | mark (mark : Mark)

/-- How far reading has come: with open frames, innermost first, or with the whole form. -/
inductive State where
  | reading (frames : List Frame)
  | done (form : Sexp)

/-- Hands a finished form to the innermost open frame. -/
def deliver (form : Sexp) : List Frame → State
  | [] => .done form
  | .mark m :: frames => deliver (m.apply form) frames
  | .list items :: frames => .reading (.list (form :: items) :: frames)
  | .vector items :: frames => .reading (.vector (form :: items) :: frames)

/-- Takes one token; `none` when it cannot come here. -/
def step (token : Token) : State → Option State
  | .done _ => none
  | .reading frames =>
    match token with
    | .string text => some (deliver (.string text) frames)
    | .character code => some (deliver (.integer (Int64.ofNat code.toNat)) frames)
    | .atom text => some (deliver (Sexp.ofAtom text) frames)
    | .openParen => some (.reading (.list [] :: frames))
    | .openBracket => some (.reading (.vector [] :: frames))
    | .quote => some (.reading (.mark .quote :: frames))
    | .backquote => some (.reading (.mark .backquote :: frames))
    | .comma => some (.reading (.mark .comma :: frames))
    | .commaAt => some (.reading (.mark .splice :: frames))
    | .closeParen =>
      match frames with
      | .list items :: frames => some (deliver (.list items.reverse) frames)
      | _ => none
    | .closeBracket =>
      match frames with
      | .vector items :: frames => some (deliver (.vector items.reverse) frames)
      | _ => none

/-- Reads tokens up to the end of the text, which is at byte `size`. -/
def finish (size : Nat) (state : State) : List (Token × Span) → Except (Fault × Span) Sexp
  | [] =>
    match state with
    | .done form => .ok form
    | .reading _ => .error (.endOfInput, ⟨size, size + 1⟩)
  | (token, span) :: rest =>
    match step token state with
    | some state => finish size state rest
    | none => .error (.unexpected token, span)

/-- The tokens, if all lexemes are tokens; otherwise the place of the first that is none. -/
def tokens : List Lexeme → Except Span (List (Token × Span))
  | [] => .ok []
  | .junk span :: _ => .error span
  | .token token span :: rest => (tokens rest).map ((token, span) :: ·)

/-- The text between two byte offsets that lie between characters. -/
def slice (span : Span) (offset : Nat) : List Char → List Char
  | [] => []
  | c :: cs =>
    if span.start ≤ offset && offset < span.stop then c :: slice span (offset + c.utf8Size) cs
    else slice span (offset + c.utf8Size) cs

/-- The number of newlines before a byte offset. -/
def newlinesBefore (limit offset : Nat) : List Char → Nat
  | [] => 0
  | c :: cs =>
    if offset < limit then (if c == '\n' then 1 else 0) + newlinesBefore limit (offset + c.utf8Size) cs else 0

/-- The line of a byte offset, counted from one after `leading` lines that a wrapper added, and at most `lines`. -/
def lineAt (text : List Char) (offset leading lines : Nat) : Nat :=
  min (max 1 (newlinesBefore offset 0 text + 1 - leading)) (max 1 lines)

/-- Reads the one form of a text. -/
def readText (text : List Char) (leading lines : Nat) : Except ReadError Sexp :=
  let fail (fault : Fault) (span : Span) : ReadError := ⟨fault, span, lineAt text span.start leading lines⟩
  match tokens (Lexeme.ofChunks 0 (Chunk.scan text)) with
  | .error span => .error (fail (.unrecognized (String.ofList (slice span 0 text))) span)
  | .ok tokens =>
    match finish (Text.byteSize text) (.reading []) tokens with
    | .ok form => .ok form
    | .error (fault, span) => .error (fail fault span)

/-- Puts a file's text into parentheses, each on a line of its own. -/
def wrap (content : List Char) : List Char := ['(', '\n'] ++ content ++ ['\n', ')']

end Reader

/-- Reads a text that holds one form. -/
def Sexp.read (source : String) : Except ReadError Sexp :=
  Reader.readText source.toList 0 (Text.lineCount source.toList)

/-- Reads all forms of a file's text. -/
def Sexp.readForms (content : String) : Except ReadError (List Sexp) :=
  match Reader.readText (Reader.wrap content.toList) 1 (Text.lineCount content.toList) with
  | .error e => .error e
  | .ok (.list forms) => .ok forms
  | .ok form => .ok [form]

end LispDoc
