import LispDoc.Diagnostic
import LispDoc.Docstring.Inline

/-!
# Blocks of a docstring

Paragraphs, lists of terms with definitions, and quotes. Definitions and quotes hold blocks in turn. Every block knows
where it starts.
-/

namespace LispDoc

/-- Where a block starts: line, byte offset of that line, and the source of the docstring. -/
structure Origin where
  line : Nat
  offset : Nat
  source : Source
  deriving DecidableEq, Repr

def Origin.location (o : Origin) : Location := o.source.atLine o.line

mutual
inductive Block where
  /-- source lines joined by newlines, and their inline nodes -/
  | paragraph (raw : String) (content : List Inline) (origin : Origin)
  | definitionList (items : List DefinitionItem) (origin : Origin)
  | blockQuote (children : List Block) (origin : Origin)
  deriving Repr

/-- A term and its definition. -/
inductive DefinitionItem where
  | mk (term : String) (termContent : List Inline) (definition : List Block) (origin : Origin)
  deriving Repr
end

namespace DefinitionItem

def term : DefinitionItem → String
  | mk term _ _ _ => term

def termContent : DefinitionItem → List Inline
  | mk _ content _ _ => content

def definition : DefinitionItem → List Block
  | mk _ _ definition _ => definition

def origin : DefinitionItem → Origin
  | mk _ _ _ origin => origin

end DefinitionItem

namespace Block

/-- The name of a block's kind. -/
def kindName : Block → String
  | paragraph .. => "Paragraph"
  | definitionList .. => "DefinitionList"
  | blockQuote .. => "BlockQuote"

def origin : Block → Origin
  | paragraph _ _ origin => origin
  | definitionList _ origin => origin
  | blockQuote _ origin => origin

mutual
/-- The texts in a block that are subject to inline markup. -/
def texts : Block → List String
  | paragraph raw _ _ => [raw]
  | definitionList items _ => itemTexts items
  | blockQuote children _ => blockTexts children

def itemTexts : List DefinitionItem → List String
  | [] => []
  | .mk term _ definition _ :: items => blockTexts definition ++ term :: itemTexts items

def blockTexts : List Block → List String
  | [] => []
  | block :: blocks => block.texts ++ blockTexts blocks
end

end Block

end LispDoc
