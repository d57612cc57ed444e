import LispDoc.Docstring.Markup
import LispDoc.Environment
import LispDoc.InfoTarget

/-!
# Roles of written documentation

Documentation written by hand refers to arguments, to code with arguments in braces, to Info nodes, and to the slots of
structures. A slot is named on its own, inside the documentation of its structure, or after its structure and a space;
its function is named after both.
-/

namespace LispDoc.Roles

/-- An argument. -/
def metaVariable (text : String) : Inline := .metaVariable text

/-- A name in braces. -/
def bracedRule : Rule := fun _ text =>
  match text with
  | '\x7b' :: cs =>
    let name := cs.takeWhile (· != '\x7d')
    if name.isEmpty || name.length == cs.length then none
    else some ⟨'\x7b' :: name ++ ['\x7d'], some [metaVariable (String.ofList name)]⟩
  | _ => none

/-- Code in which names in braces are arguments. -/
def code (text : String) : Inline := .literal ((Markup.mk [bracedRule]).nodes text.toList)

/-- An Info node. -/
def infoNode (target : String) (title : Option String) : Inline := .reference (InfoTarget.reference target title)

/-- The name of the function of a slot. -/
def accessorName (struct slot : String) : String := struct ++ "-" ++ slot

/-- The name of a slot's function, inside the documentation of its structure. -/
def slotName (struct : Option String) (slot : String) : Except LispError String :=
  match struct with
  | some struct => .ok (accessorName struct slot)
  | none => .error (.malformedDefinitionSite "Missing containing structure")

/-- A reference to the function of a slot. -/
structure SlotReference where
  title : String
  target : String
  deriving DecidableEq, Repr

/-- The node of a slot reference. -/
def SlotReference.toInline (r : SlotReference) : Inline :=
  .reference { role := .function, target := r.target, text := some r.title }

/-- Resolves a slot. The title shrinks to the slot's own name after a tilde, or inside the documentation of its
structure, unless it was given explicitly. -/
def slotReference (struct : Option String) (title target : String) (explicit : Bool) : SlotReference :=
  let short := target.toList.head? = some '~'
  let name := target.toList.dropWhile (· == '~')
  let owner := String.ofList (name.takeWhile (· != ' '))
  match name.dropWhile (· != ' ') with
  | _ :: slot =>
    ⟨if !explicit && (short || struct == some owner) then String.ofList slot else title,
      accessorName owner (String.ofList slot)⟩
  | [] => ⟨title, struct.elim owner fun s => accessorName s owner⟩

end LispDoc.Roles
