import LispDoc.Docstring.Block
import LispDoc.Text.Blank

/-!
# Outline of a block tree

A drawing of the tree with one line for each block and each term, and a further line below a paragraph that has markup,
which lists the nodes other than plain text.
-/

namespace LispDoc.Outline

/-- At most `limit` characters, with dots in place of the rest. -/
def truncate (limit : Nat) (text : String) : String :=
  if limit < text.toList.length then String.ofList (text.toList.take limit) ++ "..." else text

/-- What an outline shows of a node with markup. -/
def nodeSummary? : Inline → Option String
  | .plain _ => none
  | .emphasis text => some ("*" ++ text ++ "*")
  | .reference r => some (r.role.describe ++ ":" ++ r.target)
  | .literal children => some ("code:" ++ Inline.textOf children)
  | .metaVariable name => some ("metavar:" ++ name)

/-- What an outline shows of the nodes with markup. -/
def summary (content : List Inline) : String := ", ".intercalate (content.filterMap nodeSummary?)

/-- The branch that leads to a node. -/
def connector (last : Bool) : String := if last then "└─" else "├─"

/-- The column below a node, which goes on where more nodes follow. -/
def column (last : Bool) : String := if last then "  " else "│ "

/-- One line of an outline, without the columns in front. -/
def entry (last : Bool) (kind : String) (line : Nat) (detail : String) : String :=
  connector last ++ " " ++ kind ++ "@" ++ String.ofList (Digits.ofNat line) ++ detail ++ "\n"

mutual
/-- The outline of a block below the columns `lead`. -/
def block (lead : String) (last : Bool) : Block → String
  | .paragraph raw content origin =>
    lead ++ entry last "Paragraph" origin.line (": " ++ truncate 30 (Text.oneLine raw)) ++
      (if (summary content).isEmpty then "" else lead ++ column last ++ "└─ [" ++ summary content ++ "]\n")
  | .definitionList items origin =>
    lead ++ entry last "DefinitionList" origin.line
        (": " ++ String.ofList (Digits.ofNat items.length) ++ " items") ++
      itemList (lead ++ column last) items
  | .blockQuote children origin =>
    lead ++ entry last "BlockQuote" origin.line "" ++ blockList (lead ++ column last) children

/-- The outlines of the items of a definition list. -/
def itemList (lead : String) : List DefinitionItem → String
  | [] => ""
  | .mk term _ definition origin :: items =>
    lead ++ entry items.isEmpty "Term" origin.line (": " ++ truncate 30 term) ++
      blockList (lead ++ column items.isEmpty) definition ++ itemList lead items

/-- The outlines of blocks that follow each other. -/
def blockList (lead : String) : List Block → String
  | [] => ""
  | b :: blocks => block lead blocks.isEmpty b ++ blockList lead blocks
end

/-- The outline of a docstring. -/
def ofBlocks (blocks : List Block) : String := blockList "" blocks

end LispDoc.Outline
