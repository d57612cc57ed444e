import LispDoc.Sexp.Basic
import LispDoc.Table

/-!
# Symbols

A symbol may be defined in several scopes at once, each with a provenance of its own, and has properties. Properties
hold constants, references to other symbols by name, argument lists and versions.
-/

namespace LispDoc

/-- A part of the name space in which a symbol may have a definition. -/
inductive Scope where
  | function
  | var
  | face
  | struct
  deriving DecidableEq, Repr

namespace Scope

def name : Scope → String
  | function => "function"
  | var => "variable"
  | face => "face"
  | struct => "struct"

/-- All scopes in the order in which they are listed. -/
def all : List Scope := [function, var, face, struct]

/-- The scope with a name. -/
def ofName? (name : String) : Option Scope := all.find? (·.name == name)

/-- What is said of a name that no scope has. -/
def unknownMessage (name : String) : String := "Unknown scope: " ++ name

end Scope

/-- Where a definition came from: the file and the feature that was being loaded. Either may be unknown. -/
structure Provenance where
  file : Option String := none
  feature : Option String := none
  deriving DecidableEq, Repr, Inhabited

/-- A provenance for each scope that has a definition. -/
structure Scopes where
  function : Option Provenance := none
  var : Option Provenance := none
  face : Option Provenance := none
  struct : Option Provenance := none
  deriving DecidableEq, Repr, Inhabited

namespace Scopes

def get? (s : Scopes) : Scope → Option Provenance
  | .function => s.function
  | .var => s.var
  | .face => s.face
  | .struct => s.struct

/-- With the provenance of one scope replaced. -/
def insert (s : Scopes) (scope : Scope) (p : Provenance) : Scopes :=
  match scope with
  | .function => { s with function := some p }
  | .var => { s with var := some p }
  | .face => { s with face := some p }
  | .struct => { s with struct := some p }

/-- The scopes with a definition, in order. -/
def toList (s : Scopes) : List (Scope × Provenance) :=
  Scope.all.filterMap fun scope => (s.get? scope).map (scope, ·)

@[simp] theorem get?_insert (s : Scopes) (scope : Scope) (p : Provenance) (other : Scope) :
    (s.insert scope p).get? other = if scope = other then some p else s.get? other := by
  cases scope <;> cases other <;> rfl

@[ext] theorem ext_get? {s t : Scopes} (h : ∀ scope, s.get? scope = t.get? scope) : s = t := by
  obtain ⟨f, v, c, r⟩ := s
  obtain ⟨f', v', c', r'⟩ := t
  have h1 : f = f' := h .function
  have h2 : v = v' := h .var
  have h3 : c = c' := h .face
  have h4 : r = r' := h .struct
  subst h1 h2 h3 h4; rfl

end Scopes

/-- The value of a property. -/
inductive PropertyValue where
  | string (text : String)
  | integer (value : Int64)
  | float (value : Binary64)
  | bool (value : Bool)
  /-- `nil` or the empty list -/
  | empty
  /-- another symbol, by name -/
  | symbol (name : String)
  /-- a sequence of words, such as an argument list -/
  | list (items : List String)
  /-- the package and the version that introduced something -/
  | version (package version : String)
  deriving DecidableEq, Repr

namespace PropertyValue

/-- The value of a constant form. -/
def ofConstant? (form : Sexp) : Option PropertyValue :=
  if form.isPrimitive then
    match form with
    | .string text => some (string text)
    | .integer value => some (integer value)
    | .float value => some (float value)
    | .symbol "t" => some (bool true)
    | _ => some empty
  else none

def string? : PropertyValue → Option String
  | string text => some text
  | _ => none

def symbol? : PropertyValue → Option String
  | symbol name => some name
  | _ => none

def list? : PropertyValue → Option (List String)
  | list items => some items
  | _ => none

/-- Whether two values are equal; the two zeros are. -/
def agrees : PropertyValue → PropertyValue → Bool
  | float a, float b => a == b || (a.isZero && b.isZero)
  | a, b => a == b

/-- Everything counts as true but falsehood and emptiness. -/
def isTruthy : PropertyValue → Bool
  | bool false => false
  | empty => false
  | _ => true

end PropertyValue

/-! The names of the properties that definitions record. -/
namespace Property

def functionDocumentation : String := "function-documentation"
def functionArglist : String := "function-arglist"
def variableDocumentation : String := "variable-documentation"
def bufferLocal : String := "buffer-local"
def safeLocalVariable : String := "safe-local-variable"
def riskyLocalVariable : String := "risky-local-variable"
def customPackageVersion : String := "custom-package-version"
def faceDocumentation : String := "face-documentation"
def structureDocumentation : String := "structure-documentation"
def structureSlots : String := "structure-slots"

end Property

/-- A name with its definitions and properties. -/
structure Symbol where
  name : String
  scopes : Scopes := {}
  properties : Table PropertyValue := .empty
  deriving DecidableEq, Inhabited

namespace Symbol

def inScope (s : Symbol) (scope : Scope) : Bool := (s.scopes.get? scope).isSome

def provenance? (s : Symbol) (scope : Scope) : Option Provenance := s.scopes.get? scope

/-- Records where the definition in a scope came from. -/
def define (s : Symbol) (scope : Scope) (p : Provenance) : Symbol := { s with scopes := s.scopes.insert scope p }

def property? (s : Symbol) (property : String) : Option PropertyValue := s.properties.get? property

/-- The text of a property whose value is a string. -/
def stringProperty? (s : Symbol) (property : String) : Option String :=
  (s.property? property).bind PropertyValue.string?

/-- Records the value of a property. -/
def setProperty (s : Symbol) (property : String) (value : PropertyValue) : Symbol :=
  { s with properties := s.properties.insert property value }

/-- Records the value of a property if there is one. -/
def setProperty? (s : Symbol) (property : String) (value : Option PropertyValue) : Symbol :=
  match value with
  | some value => s.setProperty property value
  | none => s

/-- Records all properties of a table. -/
def setProperties (s : Symbol) (properties : Table PropertyValue) : Symbol :=
  properties.entries.foldl (fun s e => s.setProperty e.1 e.2) s

end Symbol

end LispDoc
