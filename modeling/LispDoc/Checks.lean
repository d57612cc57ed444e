import LispDoc.Docstring.Block
import LispDoc.Text.Quoted

/-!
# Checks of block trees

A script of checks walks a block tree and states what should be found there. The checks of a list are tried in order,
and the first that fails names the way to the node where it failed, such as `items[1]:definition[0]`. A check that says
what kind a block is goes on inside the block and ends the list it stands in.
-/

namespace LispDoc.Checks

/-- Checks of an inline node. -/
inductive InlineCheck where
  | plain (text : String)
  | emphasis (text : String)
  | reference (role : Role) (target : String)
  | literal (text : String)
  | metaVariable (name : String)
  deriving DecidableEq, Repr

/-- Checks of a paragraph. -/
inductive ParagraphCheck where
  | text (expected : String)
  | raw (expected : String)
  | contains (part : String)
  | count (expected : Nat)
  | hasReference (role : Role) (target : String)
  | hasMetaVariable (name : String)
  | node (index : Nat) (checks : List InlineCheck)
  deriving DecidableEq, Repr

mutual
/-- Checks of a sequence of blocks. -/
inductive BlocksCheck where
  | count (expected : Nat)
  | block (index : Nat) (checks : List BlockCheck)
  deriving Repr

/-- Checks of a block. -/
inductive BlockCheck where
  | line (expected : Nat)
  | paragraph (checks : List ParagraphCheck)
  | definitionList (checks : List ListCheck)
  | blockQuote (checks : List BlocksCheck)
  deriving Repr

/-- Checks of a definition list. -/
inductive ListCheck where
  | count (expected : Nat)
  | item (index : Nat) (checks : List ItemCheck)
  deriving Repr

/-- Checks of a term and its definition. -/
inductive ItemCheck where
  | term (expected : String)
  | termText (expected : String)
  | line (expected : Nat)
  | definition (checks : List BlocksCheck)
  deriving Repr
end

/-- Where a check failed, and how. -/
structure Failure where
  path : String
  detail : String
  deriving DecidableEq, Repr

/-- The wording of a failure. -/
def Failure.message (f : Failure) : String := f.path ++ ": " ++ f.detail

abbrev Verdict := Except Failure Unit

/-- Fails unless a condition holds. -/
def expect (condition : Bool) (path detail : String) : Verdict :=
  if condition then .ok () else .error ⟨path, detail⟩

/-! ### Nodes in messages -/

/-- A role in a message about nodes. -/
def roleTitle : Role → String
  | .info => "Info"
  | .command => "Command"
  | .function => "Function"
  | .option => "Option"
  | .var => "Variable"
  | .face => "Face"
  | .quotedSymbol => "QuotedSymbol"
  | .url => "Url"
  | .symbol => "Symbol"

/-- A text that may be missing. -/
def optionText : Option String → String
  | some text => "Some(" ++ Text.quoted text ++ ")"
  | none => "None"

def referenceText (r : Reference) : String :=
  "ReferenceInline \x7b role: " ++ roleTitle r.role ++ ", target: " ++ Text.quoted r.target ++ ", text: " ++
    optionText r.text ++ " \x7d"

mutual
/-- A node in a message. -/
def nodeText : Inline → String
  | .plain text => "Plain(" ++ Text.quoted text ++ ")"
  | .emphasis text => "Emphasis(" ++ Text.quoted text ++ ")"
  | .reference r => "Reference(" ++ referenceText r ++ ")"
  | .literal children => "Literal([" ++ nodeTexts children ++ "])"
  | .metaVariable name => "MetaVariable(" ++ Text.quoted name ++ ")"

/-- Nodes in a message, without brackets. -/
def nodeTexts : List Inline → String
  | [] => ""
  | [node] => nodeText node
  | node :: nodes => nodeText node ++ ", " ++ nodeTexts nodes
end

/-- A sequence of nodes in a message. -/
def nodesText (nodes : List Inline) : String := "[" ++ nodeTexts nodes ++ "]"

def natText (n : Nat) : String := String.ofList (Digits.ofNat n)

/-- The way to a numbered child. -/
def child (path : String) (index : Nat) : String := path ++ "[" ++ natText index ++ "]"

/-! ### Checking -/

mutual
/-- Whether a node is a meta-variable or holds it in code. -/
def mentions (name : String) : Inline → Bool
  | .metaVariable found => found == name
  | .literal children => anyMentions name children
  | _ => false

def anyMentions (name : String) : List Inline → Bool
  | [] => false
  | node :: nodes => mentions name node || anyMentions name nodes
end

/-- Whether one text stands somewhere in another. -/
def containsText (part : List Char) : List Char → Bool
  | [] => part.isEmpty
  | c :: cs => part.isPrefixOf (c :: cs) || containsText part cs

def checkInline (path : String) (node : Inline) : InlineCheck → Verdict
  | .plain expected =>
    match node with
    | .plain text =>
      expect (text == expected) path
        ("Expected plain text " ++ Text.quoted expected ++ ", found " ++ Text.quoted text)
    | other => .error ⟨path, "Expected plain text, found " ++ nodeText other⟩
  | .emphasis expected =>
    match node with
    | .emphasis text =>
      expect (text == expected) path ("Expected emphasis " ++ Text.quoted expected ++ ", found " ++ Text.quoted text)
    | other => .error ⟨path, "Expected emphasis, found " ++ nodeText other⟩
  | .reference role target =>
    match node with
    | .reference r => do
      expect (r.role == role) path ("Expected " ++ role.describe ++ " reference, found " ++ r.role.describe)
      expect (r.target == target) path
        ("Expected reference to " ++ Text.quoted target ++ ", found " ++ Text.quoted r.target)
    | other => .error ⟨path, "Expected reference, found " ++ nodeText other⟩
  | .literal expected =>
    match node with
    | .literal children =>
      expect (Inline.textOf children == expected) path
        ("Expected literal " ++ Text.quoted expected ++ ", found " ++ Text.quoted (Inline.textOf children))
    | other => .error ⟨path, "Expected literal, found " ++ nodeText other⟩
  | .metaVariable expected =>
    match node with
    | .metaVariable name =>
      expect (name == expected) path ("Expected meta-variable " ++ expected ++ ", found " ++ name)
    | other => .error ⟨path, "Expected meta-variable, found " ++ nodeText other⟩

def checkParagraph (path raw : String) (content : List Inline) : ParagraphCheck → Verdict
  | .text expected =>
    expect (Inline.textOf content == expected) path
      ("Expected paragraph text " ++ Text.quoted expected ++ ", found " ++ Text.quoted (Inline.textOf content))
  | .raw expected =>
    expect (raw == expected) path ("Expected raw text " ++ Text.quoted expected ++ ", found " ++ Text.quoted raw)
  | .contains part =>
    expect (containsText part.toList (Inline.textOf content).toList) path
      ("Expected paragraph text to contain " ++ Text.quoted part ++ ", found " ++
        Text.quoted (Inline.textOf content))
  | .count expected =>
    expect (content.length == expected) path
      ("Expected " ++ natText expected ++ " inline nodes, found " ++ natText content.length ++ ": " ++
        nodesText content)
  | .hasReference role target =>
    expect ((content.filterMap Inline.reference?).any fun r => r.role == role && r.target == target) path
      ("Expected a " ++ role.describe ++ " reference to " ++ Text.quoted target ++ " in " ++ nodesText content)
  | .hasMetaVariable name =>
    expect (anyMentions name content) path ("Expected meta-variable " ++ name ++ " in " ++ nodesText content)
  | .node index checks =>
    match content[index]? with
    | some node => checks.forM (checkInline (child (path ++ ":inlines") index) node)
    | none =>
      .error ⟨path, "Inline index " ++ natText index ++ " out of bounds (" ++ natText content.length ++ " nodes)"⟩

/-- Said of a block of the wrong kind. -/
def wrongKind (path expected : String) (block : Block) : Verdict :=
  .error ⟨path, "Expected " ++ expected ++ ", found " ++ block.kindName⟩

mutual
/-- Tries checks of a sequence of blocks. -/
def runBlocks (path : String) (blocks : List Block) : List BlocksCheck → Verdict
  | [] => .ok ()
  | .count expected :: rest => do
    expect (blocks.length == expected) path
      ("Expected " ++ natText expected ++ " blocks, found " ++ natText blocks.length ++ " blocks: [" ++
        ", ".intercalate (blocks.map Block.kindName) ++ "]")
    runBlocks path blocks rest
  | .block index checks :: rest =>
    match blocks[index]? with
    | some block => do
      runBlock (child path index) block checks
      runBlocks path blocks rest
    | none =>
      .error ⟨path, "Item index " ++ natText index ++ " out of bounds (" ++ natText blocks.length ++ " blocks)"⟩

/-- Tries checks of a block. -/
def runBlock (path : String) (block : Block) : List BlockCheck → Verdict
  | [] => .ok ()
  | .line expected :: rest => do
    expect (block.origin.line == expected) path
      ("Expected block at line " ++ natText expected ++ ", found line " ++ natText block.origin.line)
    runBlock path block rest
  | .paragraph checks :: _ =>
    match block with
    | .paragraph raw content _ => checks.forM (checkParagraph path raw content)
    | other => wrongKind path "Paragraph" other
  | .definitionList checks :: _ =>
    match block with
    | .definitionList items _ => runList path items checks
    | other => wrongKind path "DefinitionList" other
  | .blockQuote checks :: _ =>
    match block with
    | .blockQuote children _ => runBlocks (path ++ ":quote") children checks
    | other => wrongKind path "BlockQuote" other

/-- Tries checks of a definition list. -/
def runList (path : String) (items : List DefinitionItem) : List ListCheck → Verdict
  | [] => .ok ()
  | .count expected :: rest => do
    expect (items.length == expected) path
      ("Expected " ++ natText expected ++ " definitions, found " ++ natText items.length)
    runList path items rest
  | .item index checks :: rest =>
    match items[index]? with
    | some item => do
      runItem (child (path ++ ":items") index) item checks
      runList path items rest
    | none =>
      .error ⟨path,
        "Definition index " ++ natText index ++ " out of bounds (" ++ natText items.length ++ " definitions)"⟩

/-- Tries checks of a term and its definition. -/
def runItem (path : String) (item : DefinitionItem) : List ItemCheck → Verdict
  | [] => .ok ()
  | .term expected :: rest => do
    expect (item.term == expected) path
      ("Expected term " ++ Text.quoted expected ++ ", found " ++ Text.quoted item.term)
    runItem path item rest
  | .termText expected :: rest => do
    expect (Inline.textOf item.termContent == expected) path
      ("Expected term text " ++ Text.quoted expected ++ ", found " ++ Text.quoted (Inline.textOf item.termContent))
    runItem path item rest
  | .line expected :: rest => do
    expect (item.origin.line == expected) path
      ("Expected term at line " ++ natText expected ++ ", found line " ++ natText item.origin.line)
    runItem path item rest
  | .definition checks :: rest => do
    runBlocks (path ++ ":definition") item.definition checks
    runItem path item rest
end

/-- Tries a script on the blocks of a docstring. -/
def run (blocks : List Block) (script : List BlocksCheck) : Verdict := runBlocks "items" blocks script

end LispDoc.Checks
