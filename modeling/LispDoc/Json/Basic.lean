/-!
# JSON values

A number keeps the literal it is written with, since readers differ in what they make of it. The members of an object
keep their order, and a key may occur twice. A text in which half of a surrogate pair is escaped is well formed but
has no value; it can only be passed over.
-/

namespace LispDoc

inductive Json where
  | null
  | bool (value : Bool)
  | number (literal : String)
  | string (text : String)
  | array (items : List Json)
  | object (members : List (String × Json))
  /-- a text with half of a surrogate pair, or an object with such a key -/
  | unreadable
  deriving Repr, Inhabited

namespace Json

/-- The value of the last member with that key. -/
def member? (key : String) : Json → Option Json
  | object members => (members.reverse.find? fun m => m.1 == key).map (·.2)
  | _ => none

/-- The text of a string. -/
def string? : Json → Option String
  | string text => some text
  | _ => none

/-- The items of an array. -/
def array? : Json → Option (List Json)
  | array items => some items
  | _ => none

/-- The value of a boolean. -/
def bool? : Json → Option Bool
  | bool value => some value
  | _ => none

/-- An absent value is written as null. -/
def ofOption : Option Json → Json
  | none => null
  | some value => value

/-- A string, or null. -/
def ofText? (text : Option String) : Json := ofOption (text.map string)

end Json

end LispDoc
