import LispDoc.Number.Binary64

/-!
# Documents

The common form of everything that is written out: scalars, lists, tables whose entries keep their order, and values
with a tag that tells which of several alternatives they are. How a tag is written is left to the format.
-/

namespace LispDoc

inductive Datum where
  | null
  | bool (value : Bool)
  | integer (value : Int)
  | float (value : Binary64)
  | text (text : String)
  | list (items : List Datum)
  | table (entries : List (String × Datum))
  | tagged (tag : String) (payload : Datum)
  deriving Repr, Inhabited

namespace Datum

/-- A text, or nothing. -/
def ofText? : Option String → Datum
  | some t => text t
  | none => null

end Datum

end LispDoc
