import LispDoc.Environment
import LispDoc.Keywords

/-!
# Definition forms

What each recognised form records. A form names something, belongs to a scope, and carries constants: an argument
list, a docstring, keywords. Nothing is evaluated, and operands that are not constant are ignored.

* `(defun NAME ARGLIST [DOCSTRING] …)` and its kin define functions.
* `(defvar NAME [VALUE [DOCSTRING]] KEYWORDS…)` and its kin define variables.
* `(defface NAME SPEC [DOCSTRING] KEYWORDS…)` defines a face.
* `(cl-defstruct NAME-AND-OPTIONS [DOCSTRING] SLOTS…)` defines a structure and a function for each slot.
* `(put 'SYMBOL 'PROPERTY VALUE)` sets a property to a constant or to a quoted symbol.
* `(eval-and-compile FORMS…)` and `(eval-when-compile FORMS…)` stand for their forms.
-/

namespace LispDoc

/-- What a form did: the environment afterwards, also when it failed, what was noted, and its value. -/
structure Step where
  env : Environment
  notices : List Notice
  outcome : Except LispError (Option Sexp)

namespace Step

/-- Nothing happened. -/
def skip (env : Environment) (notices : List Notice) : Step := ⟨env, notices, .ok none⟩

def fail (env : Environment) (error : LispError) : Step := ⟨env, [], .error error⟩

/-- The step of a change that succeeds with notices or fails without a trace. -/
def ofUpdate (env : Environment) (notices : List Notice) : Except LispError Environment → Step
  | .ok changed => ⟨changed, notices, .ok none⟩
  | .error error => fail env error

end Step

namespace Definition

/-- What a definition records of its operands, in the context of a file and a feature. -/
abbrev Recorder := Provenance → String → List Sexp → Environment → Step

/-- The operators that define functions. -/
def functionForms : List String :=
  ["defun", "defmacro", "defsubst", "cl-defun", "cl-defmacro", "cl-defsubst", "define-inline"]

/-- The operators that define variables. -/
def variableForms : List String := ["defvar", "defcustom", "defvar-local", "defconst"]

/-- The operators that stand for their operands. -/
def bodyForms : List String := ["eval-and-compile", "eval-when-compile"]

/-- The error of a definition that names nothing. -/
def nameless (operator : String) : LispError := .malformedDefinitionSite (operator ++ " without a name")

/-- A docstring in front, and the operands after it. -/
def splitDocstring : List Sexp → Option String × List Sexp
  | .string text :: rest => (some text, rest)
  | operands => (none, operands)

/-- The printed arguments of an argument list. -/
def arglist : Option Sexp → List String
  | some (.list items) => items.map Sexp.print
  | _ => []

/-- Function definitions. -/
def function : Recorder := fun context operator operands env =>
  match operands with
  | [] => .fail env (nameless operator)
  | name :: rest =>
    .ofUpdate env [] <| env.updateForm name fun s =>
      ((s.define .function context).setProperty Property.functionArglist (.list (arglist rest.head?))).setProperty?
        Property.functionDocumentation ((rest[1]?.bind Sexp.string?).map .string)

/-- Variable definitions. -/
def var : Recorder := fun context operator operands env =>
  match operands with
  | [] => .fail env (nameless operator)
  | name :: rest =>
    let (docstring, keywords) := splitDocstring rest.tail
    .ofUpdate env (Keywords.notices keywords) <| env.updateForm name fun s =>
      (((s.define .var context).setProperty? Property.variableDocumentation (docstring.map .string)).setProperty
        Property.bufferLocal (.bool ("-local".toList.isSuffixOf operator.toList))).setProperties
          (Keywords.properties keywords)

/-- Face definitions. -/
def face : Recorder := fun context operator operands env =>
  match operands with
  | [] => .fail env (nameless operator)
  | name :: rest =>
    let (docstring, keywords) := splitDocstring rest.tail
    .ofUpdate env (Keywords.notices keywords) <| env.updateForm name fun s =>
      ((s.define .face context).setProperty? Property.faceDocumentation (docstring.map .string)).setProperties
        (Keywords.properties keywords)

/-- The text of a `:conc-name` option. -/
def concName? (option : Sexp) : Option String :=
  match option with
  | .list (.symbol ":conc-name" :: value :: _) => value.symbol?.or value.string?
  | _ => none

/-- What the names of slot functions start with. -/
def accessorStem (name : String) (options : List Sexp) : String :=
  match options.findSome? concName? with
  | some "nil" => ""
  | some stem => stem
  | none => name ++ "-"

/-- The name of a structure, and what the names of its slot functions start with. -/
def structHead? : Sexp → Option (String × String)
  | .symbol name => some (name, accessorStem name [])
  | .list (.symbol name :: options) => some (name, accessorStem name options)
  | _ => none

/-- The name of a slot: a symbol, or a list headed by one. -/
def slotName? : Sexp → Option String
  | .symbol name => some name
  | .list (.symbol name :: _) => some name
  | _ => none

/-- Defines the slot functions one after the other, up to the first whose name is invalid. -/
def accessors (context : Provenance) (stem : String) (env : Environment) : List String → Step
  | [] => .skip env []
  | slot :: slots =>
    match env.update (stem ++ slot) fun s =>
        (s.define .function context).setProperty Property.functionArglist (.list ["cl-x"]) with
    | .ok env => accessors context stem env slots
    | .error error => .fail env error

/-- Structure definitions. -/
def struct : Recorder := fun context operator operands env =>
  match operands with
  | [] => .fail env (nameless operator)
  | spec :: rest =>
    match structHead? spec with
    | none => .fail env (.invalidSymbolName spec.print)
    | some (name, stem) =>
      let (docstring, slotSpecs) := splitDocstring rest
      let slots := slotSpecs.filterMap slotName?
      match env.update name fun s =>
          ((s.define .struct context).setProperty? Property.structureDocumentation (docstring.map .string)).setProperty
            Property.structureSlots (.list slots) with
      | .ok env => accessors context stem env slots
      | .error error => .fail env error

/-- Sets a property, and gives its value back. -/
def store (env : Environment) (name property : String) (stored : PropertyValue) (value : Sexp) : Step :=
  match env.update name (·.setProperty property stored) with
  | .ok env => ⟨env, [], .ok (some value)⟩
  | .error error => .fail env error

/-- Property settings. A quoted symbol as value is interned, and its own name is recorded. -/
def put : Recorder := fun _ _ operands env =>
  match operands with
  | name :: property :: value :: _ =>
    match name.quotedSymbol?, property.quotedSymbol? with
    | some name, some property =>
      match value.quotedSymbol? with
      | some referred =>
        match env.intern referred with
        | .ok env => store env name property (.symbol (env.symbolOf referred).name) value
        | .error error => .fail env error
      | none =>
        match PropertyValue.ofConstant? value with
        | some constant => store env name property constant value
        | none => .skip env [.putValue name property value]
    | _, _ => .skip env [.putComputed name property]
  | _ => .skip env [.putOperands operands.length]

end Definition

/-- How a form is handled: something is recorded, or its operands are handled as forms in turn. -/
inductive Handler where
  | record (recorder : Definition.Recorder)
  | body

/-- The handlers that every interpreter starts with. -/
def Handler.default? (operator : String) : Option Handler :=
  if operator ∈ Definition.functionForms then some (.record Definition.function)
  else if operator ∈ Definition.variableForms then some (.record Definition.var)
  else if operator ∈ Definition.bodyForms then some .body
  else if operator = "defface" then some (.record Definition.face)
  else if operator = "put" then some (.record Definition.put)
  else if operator = "cl-defstruct" then some (.record Definition.struct)
  else none

end LispDoc
