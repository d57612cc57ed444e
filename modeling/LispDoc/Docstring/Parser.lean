import LispDoc.Docstring.Markup
import LispDoc.Docstring.Outline
import LispDoc.Docstring.Segment
import LispDoc.Notice

/-!
# Reading docstrings

A docstring is cut into lines, the lines into segments, and every segment becomes a block; the regions inside a segment
are read the same way (`Docstring.ofLines_eq`). Two things are warned about, and change nothing: an indented line
directly after a paragraph of several lines, and a line of text directly after a definition list.
-/

namespace LispDoc.Docstring

/-- Blocks, and the problems found on the way. -/
structure Parsed where
  blocks : List Block
  diagnostics : List Diagnostic

/-- One after the other. -/
def Parsed.join (parts : List Parsed) : Parsed := ⟨parts.flatMap (·.blocks), parts.flatMap (·.diagnostics)⟩

/-- Said of a line of text directly after a definition list. -/
def unexpectedUnindent : String := "Definition list ends without a blank line; unexpected unindent."

/-- Said of an indented line directly after a paragraph. -/
def unexpectedIndent : String := "Unexpected indentation."

/-- Where a block starts that starts with a line. -/
def originOf (source : Source) (line : Line) : Origin := ⟨line.number, line.offset, source⟩

/-- A warning about a line, if there is one. -/
def warnings (source : Source) (message : String) (line : Option Line) : List Diagnostic :=
  line.toList.map fun l => .warning message (some (source.atLine l.number))

/-- The text of a paragraph. -/
def rawText (lines : List Line) : List Char := List.intercalate ['\n'] (lines.map (·.text))

/-- The item of a term and the blocks of its definition. -/
def itemOf (inline : List Char → List Inline) (source : Source) (term : Line) (definition : List Block) :
    DefinitionItem :=
  .mk (String.ofList (Text.trim term.text)) (inline (Text.trim term.text)) definition (originOf source term)

/-- Where a segment starts. -/
def segmentOrigin (source : Source) (first : Option Line) : Origin :=
  first.elim ⟨0, 0, source⟩ (originOf source)

/-- The block of a segment, given what its regions hold. -/
def ofSegment (inline : List Char → List Inline) (source : Source) :
    (segment : Segment) → ((region : List Line) → region ∈ segment.regions → Parsed) → Parsed
  | .paragraph lines intruder, _ =>
    ⟨[.paragraph (String.ofList (rawText lines)) (inline (rawText lines)) (segmentOrigin source lines.head?)],
      warnings source unexpectedIndent intruder⟩
  | .definitions items intruder, nested =>
    let parsed := items.attach.map fun item =>
      (item.1.1, nested item.1.2 (List.mem_map.2 ⟨item.1, item.2, rfl⟩))
    ⟨[.definitionList (parsed.map fun p => itemOf inline source p.1 p.2.blocks)
        (segmentOrigin source (items.head?.map (·.1)))],
      parsed.flatMap (·.2.diagnostics) ++ warnings source unexpectedUnindent intruder⟩
  | .quote first lines, nested =>
    let parsed := nested lines (List.mem_singleton.2 rfl)
    ⟨[.blockQuote parsed.blocks (originOf source first)], parsed.diagnostics⟩

/-- The blocks of a sequence of lines. -/
def ofLines (inline : List Char → List Inline) (source : Source) (lines : List Line) : Parsed :=
  .join ((Segment.cut lines).attach.map fun segment =>
    ofSegment inline source segment.1 fun region _ => ofLines inline source region)
termination_by Segment.weight lines
decreasing_by exact Segment.weight_region_lt segment.2 (by assumption)

/-- Segments are read one after the other, and their regions like lines of their own. -/
theorem ofLines_eq (inline : List Char → List Inline) (source : Source) (lines : List Line) :
    ofLines inline source lines =
      .join ((Segment.cut lines).map fun segment =>
        ofSegment inline source segment fun region _ => ofLines inline source region) := by
  rw [ofLines, List.attach_map_val (f := fun segment =>
    ofSegment inline source segment fun region _ => ofLines inline source region)]

/-- How docstrings are read. -/
structure Options where
  markup : Markup := .help
  tabWidth : Nat := Line.defaultTabWidth
  /-- whether the outline of every docstring is noted -/
  debug : Bool := false

/-- The blocks of a docstring. -/
def parse (options : Options) (source : Source) (text : String) : Parsed :=
  ofLines options.markup.nodes source (Line.split options.tabWidth text.toList)

/-- What is noted once a docstring has been read. -/
def notices (options : Options) (source : Source) (blocks : List Block) : List Notice :=
  if options.debug then [.parsedDocstring source (Outline.ofBlocks blocks)] else []

/-- The first match in the text of some block that its markup has no nodes for. -/
def unhandled? (options : Options) (blocks : List Block) : Option String :=
  (Block.blockTexts blocks).findSome? fun text => options.markup.unhandled? text.toList

end LispDoc.Docstring
