import LispDoc.Docstring.Inline
import LispDoc.Text.Blank

/-!
# Info targets

A node of an Info manual is written `(manual)node`. Runs of white space count as one space. The manual ends at the last
closing parenthesis that something follows, and neither part is empty.
-/

namespace LispDoc

structure InfoTarget where
  manual : String
  node : String
  deriving DecidableEq, Repr

/-- Why a target does not lead anywhere. -/
inductive InfoError where
  | invalid (target : String)
  | unknownManual (manual : String)
  deriving DecidableEq, Repr

/-- The wording of an error. -/
def InfoError.message : InfoError → String
  | invalid target => "Invalid info target: " ++ target
  | unknownManual manual => "Cannot resolve info manual " ++ manual

namespace InfoTarget

/-- What stands before and after the last closing parenthesis that something follows. -/
def splitLast? : List Char → Option (List Char × List Char)
  | [] => none
  | c :: cs =>
    match splitLast? cs with
    | some (before, after) => some (c :: before, after)
    | none => if c = ')' && !cs.isEmpty then some ([], cs) else none

/-- The text of a target with single spaces. -/
def normalize (target : String) : String := String.ofList (Text.collapse target.toList)

/-- The manual and the node of a text with single spaces. -/
def split? : List Char → Option (List Char × List Char)
  | '(' :: cs => (splitLast? cs).filter (!·.1.isEmpty)
  | _ => none

/-- Reads a target. -/
def parse (target : String) : Except InfoError InfoTarget :=
  match split? (Text.collapse target.toList) with
  | some (manual, node) => .ok ⟨String.ofList manual, String.ofList node⟩
  | none => .error (.invalid (normalize target))

/-- The target in the form it is written in. -/
def describe (t : InfoTarget) : String := "(" ++ t.manual ++ ")" ++ t.node

/-- The title that Info shows. -/
def title (t : InfoTarget) : String := t.node ++ "(" ++ t.manual ++ ")"

/-- The manuals that can be read on the web. -/
def webManuals : List String := ["emacs", "elisp", "cl"]

/-- The name of a node in an address. -/
def anchor (node : String) : String := String.ofList (node.toList.map fun c => if c = ' ' then '-' else c)

/-- The address of the node on the web. -/
def url (t : InfoTarget) : Except InfoError String :=
  if t.manual ∈ webManuals then
    .ok ("http://www.gnu.org/software/emacs/manual/html_node/" ++ t.manual ++ "/" ++ anchor t.node ++ ".html#" ++
      anchor t.node)
  else .error (.unknownManual t.manual)

/-- A reference to a target. It shows the given title, or else the one that Info shows, or else the target. -/
def reference (target : String) (title : Option String) : Reference :=
  let shown := title.or ((parse target).toOption.map InfoTarget.title)
  { role := .info, target := normalize target, text := shown }

end InfoTarget

end LispDoc
