import LispDoc.Datum.Basic
import LispDoc.Json.Printer
import LispDoc.Number.Shortest

/-!
# Documents as JSON

A tagged value is an object with one member, named by the tag. Numbers that are not finite become null.
-/

namespace LispDoc.Datum

/-- Floats are written in full from a hundred-thousandth up to ten quadrillion. -/
def jsonFloats : Layout := ⟨-5, 16, true, true, false⟩

/-- A float as JSON. -/
def floatToJson (x : Binary64) : Json :=
  if x.isFinite then .number (String.ofList (jsonFloats.write x)) else .null

mutual
/-- The document as JSON. -/
def toJson : Datum → Json
  | null => .null
  | bool value => .bool value
  | integer value => .ofInt value
  | float value => floatToJson value
  | text t => .string t
  | list items => .array (itemsToJson items)
  | table entries => .object (entriesToJson entries)
  | tagged tag payload => .object [(tag, payload.toJson)]

def itemsToJson : List Datum → List Json
  | [] => []
  | item :: items => item.toJson :: itemsToJson items

def entriesToJson : List (String × Datum) → List (String × Json)
  | [] => []
  | (key, value) :: entries => (key, value.toJson) :: entriesToJson entries
end

end LispDoc.Datum
