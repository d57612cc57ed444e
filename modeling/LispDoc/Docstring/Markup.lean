import LispDoc.Docstring.Inline
import LispDoc.Sexp.Basic
import LispDoc.Text.Blank
import LispDoc.Text.Word

/-!
# Inline markup

A markup is a list of rules. At each place of the text, from left to right, the first rule that matches there wins, and
the text between matches is plain (`Markup.scan`). The pieces of a scan concatenate to the text.

`Markup.help` holds the conventions of help buffers, in this order: emphasis between asterisks, references to Info
nodes, commands, functions, options, variables, faces, symbols and addresses that are introduced by a word, any other
quoted text, and words of at least four upper case letters, which stand for arguments. Quoted text is a reference if it
could be the name of a symbol, and code otherwise.
-/

namespace LispDoc

/-- A match: its text, and the nodes it becomes, unless nothing has been said about it. -/
structure Found where
  matched : List Char
  nodes : Option (List Inline)

/-- Looks for a match at the start of a text, given the character before it. -/
abbrev Rule := Option Char → List Char → Option Found

structure Markup where
  rules : List Rule

/-- A piece of a text under a markup. -/
inductive Piece where
  | gap (text : List Char)
  | found (found : Found)

namespace Piece

/-- The source text of a piece. -/
def text : Piece → List Char
  | gap text => text
  | found f => f.matched

/-- The nodes of a piece. -/
def nodes : Piece → List Inline
  | gap text => [.plain (String.ofList text)]
  | found f => f.nodes.getD []

/-- The text of a match that has no nodes. -/
def unhandled? : Piece → Option String
  | gap _ => none
  | found f => if f.nodes.isNone then some (String.ofList f.matched) else none

end Piece

namespace Markup

/-- The match of the first rule that matches. -/
def find? (m : Markup) (before : Option Char) (text : List Char) : Option Found :=
  m.rules.findSome? fun rule => rule before text

/-- The gap that has been collected, newest character first, if it is not empty. -/
def closeGap (gap : List Char) : List Piece := if gap.isEmpty then [] else [.gap gap.reverse]

/-- The pieces of a text that follows the character `before` and the gap `gap`. -/
def scan (m : Markup) (before : Option Char) (gap : List Char) : List Char → List Piece
  | [] => closeGap gap
  | c :: cs =>
    match m.find? before (c :: cs) with
    | some f => closeGap gap ++ .found f :: m.scan (f.matched.getLast?.or before) [] (cs.drop (f.matched.length - 1))
    | none => m.scan (some c) (c :: gap) cs
termination_by cs => cs.length
decreasing_by
  · simp only [List.length_drop, List.length_cons]; omega
  · simp

/-- The pieces of a whole text. -/
def pieces (m : Markup) (text : List Char) : List Piece := m.scan none [] text

/-- The nodes of a text. -/
def nodes (m : Markup) (text : List Char) : List Inline := (m.pieces text).flatMap Piece.nodes

/-- The first match that has no nodes. -/
def unhandled? (m : Markup) (text : List Char) : Option String := (m.pieces text).findSome? Piece.unhandled?

/-- What is said of a match that has no nodes. -/
def unhandledMessage (quoted : String) : String :=
  "Inline markup branch without handler matched Some(" ++ quoted ++ ")"

/-! ### Rules -/

/-- The text between a backquote in front and the next quote, which must not be empty. -/
def quotedValue? : List Char → Option (List Char)
  | '\x60' :: cs =>
    let value := cs.takeWhile (· != '\x27')
    if value.isEmpty || value.length == cs.length then none else some value
  | _ => none

/-- A quoted value with its quotes. -/
def quoteValue (value : List Char) : List Char := '\x60' :: value ++ ['\x27']

/-- Takes a word off whose first letter may be in upper case. -/
def stripWord? (word : String) (cs : List Char) : Option (List Char) :=
  match word.toList, cs with
  | w :: ws, c :: cs => if (c == w || c == w.toUpper) && ws.isPrefixOf cs then some (cs.drop ws.length) else none
  | _, _ => none

/-- Takes words off, each with the white space after it; gives what was taken and the rest. -/
def leadIn? : List String → List Char → Option (List Char × List Char)
  | [], cs => some ([], cs)
  | word :: words, cs => do
    let rest ← stripWord? word cs
    let blank := rest.takeWhile Text.isBlank
    if blank.isEmpty then none
    else
      let (lead, rest) ← leadIn? words (rest.dropWhile Text.isBlank)
      return (cs.take word.length ++ blank ++ lead, rest)

/-- Text between asterisks, with no white space next to them and no asterisk inside. -/
def emphasisRule : Rule := fun _ text =>
  match text with
  | '*' :: cs =>
    let inner := cs.takeWhile (· != '*')
    if inner.length == cs.length || inner.head?.all Text.isBlank || inner.getLast?.all Text.isBlank then none
    else some ⟨'*' :: inner ++ ['*'], some [.emphasis (String.ofList inner)]⟩
  | _ => none

/-- A quoted target introduced by one of the given sequences of words. -/
def referenceRule (leads : List (List String)) (make : String → Reference) : Rule := fun _ text =>
  leads.findSome? fun words => do
    let (lead, rest) ← leadIn? words text
    let value ← quotedValue? rest
    return ⟨lead ++ quoteValue value,
      some [.plain (String.ofList lead), .reference (make (String.ofList value))]⟩

/-- What upper case words are made of after their first letter. -/
def isUpperRun (c : Char) : Bool := c.isUpper || c == '-' || c == '_'

/-- The longest beginning of a run, given newest character first, that has at least `least` characters and ends at a
word boundary; `after` is the character behind the run. -/
def longestToBoundary? (least : Nat) (after : Option Char) : List Char → Option (List Char)
  | [] => none
  | c :: before =>
    if before.length + 1 < least then none
    else if Text.atBoundary (some c) after then some (c :: before).reverse
    else longestToBoundary? least (some c) before

/-- The upper case word of at least `least` characters at the start of a text. -/
def upperWord? (least : Nat) (before : Option Char) : List Char → Option (List Char)
  | [] => none
  | c :: cs =>
    if c.isUpper && Text.atBoundary before (some c) then
      longestToBoundary? least (cs.dropWhile isUpperRun).head? (c :: cs.takeWhile isUpperRun).reverse
    else none

/-- Upper case words of at least `least` characters. -/
def metaVariableRule (least : Nat) : Rule := fun before text =>
  (upperWord? least before text).map fun word => ⟨word, some [.metaVariable (String.ofList word)]⟩

/-- Inside code every upper case word stands for an argument. -/
def code : Markup := ⟨[metaVariableRule 1]⟩

/-- The node of quoted text that no word introduces. -/
def quotedNode (value : List Char) : Inline :=
  if isSymbolName (String.ofList value) then .reference { role := .symbol, target := String.ofList value }
  else .literal (code.nodes value)

/-- Quoted text that no word introduces. -/
def quotedRule : Rule := fun _ text =>
  (quotedValue? text).map fun value => ⟨quoteValue value, some [quotedNode value]⟩

/-- A reference that shows its target. -/
def plainReference (role : Role) (target : String) : Reference := { role := role, target := target }

/-- The conventions of help buffers. -/
def help : Markup := ⟨[
  emphasisRule,
  referenceRule [["info", "node"], ["info", "anchor"]] (plainReference .info),
  referenceRule [["command"]] (plainReference .command),
  referenceRule [["function"]] (plainReference .function),
  referenceRule [["option"]] (plainReference .option),
  referenceRule [["variable"]] (plainReference .var),
  referenceRule [["face"]] (plainReference .face),
  referenceRule [["symbol"]] fun target =>
    { role := .quotedSymbol, target := target, text := some ("`" ++ target ++ "'") },
  referenceRule [["URL"]] fun target => { role := .url, target := target, text := some target },
  quotedRule,
  metaVariableRule 4]⟩

end Markup

/-- The nodes of a text in a help buffer. -/
def helpNodes (text : String) : List Inline := Markup.help.nodes text.toList

/-- Splits upper case words out of code. -/
def splitMetaVariables (code : String) : List Inline := Markup.code.nodes code.toList

end LispDoc
