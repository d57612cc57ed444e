import LispDoc.Docstring.Parser
import LispDoc.Environment

/-!
# Descriptions of symbols

A symbol is described as an object of some kind. The kind decides the scope that is looked at and the property that
holds the docstring. A symbol outside the scope, or without a docstring, is described all the same, with a warning.
-/

namespace LispDoc

inductive ObjectKind where
  | function
  /-- a function that transforms code -/
  | macroForm
  | command
  | var
  | option
  | hook
  | face
  | struct
  | slot
  deriving DecidableEq, Repr

namespace ObjectKind

def all : List ObjectKind := [function, macroForm, command, var, option, hook, face, struct, slot]

def name : ObjectKind → String
  | function => "function"
  | macroForm => "macro"
  | command => "command"
  | var => "variable"
  | option => "option"
  | hook => "hook"
  | face => "face"
  | struct => "cl-struct"
  | slot => "cl-slot"

/-- The kind with a name. -/
def ofName? (name : String) : Option ObjectKind := all.find? (·.name == name)

/-- What is said of a name that no kind has. -/
def unknownMessage (name : String) : String := "Unknown object kind: " ++ name

/-- The name of a kind in a sentence. -/
def label : ObjectKind → String
  | option => "user option"
  | struct => "CL struct"
  | slot => "slot"
  | kind => kind.name

def scope : ObjectKind → Scope
  | function => .function
  | macroForm => .function
  | command => .function
  | slot => .function
  | var => .var
  | option => .var
  | hook => .var
  | face => .face
  | struct => .struct

/-- The property that holds the docstring. -/
def docstringProperty (kind : ObjectKind) : String :=
  match kind.scope with
  | .function => Property.functionDocumentation
  | .var => Property.variableDocumentation
  | .face => Property.faceDocumentation
  | .struct => Property.structureDocumentation

/-- Whether the arguments belong to the signature. -/
def hasArglist : ObjectKind → Bool
  | function => true
  | macroForm => true
  | command => true
  | _ => false

def isVar (kind : ObjectKind) : Bool := kind.scope == .var

/-- Whether the version that introduced the object is noted. -/
def notesVersion (kind : ObjectKind) : Bool := kind.isVar || kind == .face

end ObjectKind

/-- An entry of an argument list: an argument, or a marker such as `&optional`. -/
inductive Parameter where
  | name (text : String)
  | marker (text : String)
  deriving DecidableEq, Repr

namespace Parameter

def ofText (text : String) : Parameter := if text.toList.head? = some '&' then marker text else name text

def text : Parameter → String
  | name text => text
  | marker text => text

/-- The name of a parameter's sort. -/
def sort : Parameter → String
  | name _ => "name"
  | marker _ => "marker"

end Parameter

/-- What is known about an object. -/
structure Description where
  name : String
  kind : ObjectKind
  /-- the name and the arguments -/
  signature : String
  parameters : List Parameter
  docstring : List Block
  /-- sentences about the use of a variable -/
  sentences : List (List Inline)
  versionNote : Option String

namespace Description

/-- Whether a property is set to something true. -/
def flag (symbol : Symbol) (property : String) : Bool := (symbol.property? property).any PropertyValue.isTruthy

/-- The predicate that safe values satisfy. -/
def safePredicate? (symbol : Symbol) : Option String :=
  match symbol.property? Property.safeLocalVariable with
  | some (.symbol name) => some name
  | some (.string name) => some name
  | some (.bool true) => some "t"
  | _ => none

/-- The sentence about values that satisfy a predicate. -/
def safeSentence (predicate : String) : List Inline :=
  [.plain "This variable is safe as a file local variable if its value satisfies the predicate ",
    .reference { role := .function, target := predicate }, .plain "."]

/-- Sentences about a variable in buffers and files. -/
def sentencesOf (symbol : Symbol) : List (List Inline) :=
  (if flag symbol Property.bufferLocal then [[.plain "Automatically becomes buffer-local when set."]] else []) ++
  (if flag symbol Property.riskyLocalVariable then
    [[.plain "This variable may be risky if used as a file-local variable."]] else []) ++
  (safePredicate? symbol).toList.map safeSentence

/-- The note on the version that introduced an object. -/
def versionNoteOf? (symbol : Symbol) (kind : ObjectKind) : Option String :=
  match symbol.property? Property.customPackageVersion with
  | some (.version package version) =>
    if version.isEmpty then none
    else some ("This " ++ kind.label ++ " was introduced, or its default value was changed, in version " ++ version ++
      " of the " ++ package ++ " package.")
  | _ => none

/-- The printed arguments that belong to the signature. -/
def arglistOf (symbol : Symbol) (kind : ObjectKind) : List String :=
  if kind.hasArglist then ((symbol.property? Property.functionArglist).bind PropertyValue.list?).getD [] else []

/-- The docstring of an object, if it has one that is not empty. -/
def docstringOf? (symbol : Symbol) (kind : ObjectKind) : Option String :=
  (symbol.stringProperty? kind.docstringProperty).filter (!·.isEmpty)

/-- A warning about a symbol. -/
def warning (name message : String) : Diagnostic := .warning message (some ⟨{ symbol := some name }, none⟩)

end Description

/-- A description if there is one, and what was found on the way. -/
structure Described where
  description : Option Description
  diagnostics : List Diagnostic
  /-- what is noted about the docstring -/
  notices : List Notice

/-- What a log says: the diagnostics, and then the notices. -/
def Described.log (d : Described) : List Notice := d.diagnostics.map .reported ++ d.notices

/-- The blocks of an object's docstring. -/
def Description.docstringBlocks (options : Docstring.Options) (symbol : Symbol) (kind : ObjectKind) (name : String) :
    Docstring.Parsed × List Notice :=
  match docstringOf? symbol kind with
  | some text =>
    let source : Source := ⟨(symbol.provenance? kind.scope).bind (·.file), some name⟩
    let parsed := Docstring.parse options source text
    (parsed, Docstring.notices options source parsed.blocks)
  | none => (⟨[], [warning name ("no docstring for symbol " ++ name)]⟩, [])

/-- Describes the symbol with a name as an object of a kind. -/
def describe (options : Docstring.Options) (env : Environment) (kind : ObjectKind) (name : String) : Described :=
  match env.lookup name with
  | none => ⟨none, [Description.warning name ("Undefined symbol " ++ name)], []⟩
  | some symbol =>
    let outOfScope :=
      if symbol.inScope kind.scope then []
      else [Description.warning name ("Symbol " ++ name ++ " not present in scope " ++ kind.scope.name)]
    let arglist := Description.arglistOf symbol kind
    let (docstring, notices) := Description.docstringBlocks options symbol kind name
    let description : Description := {
      name, kind
      signature := " ".intercalate (name :: arglist)
      parameters := arglist.map Parameter.ofText
      docstring := docstring.blocks
      sentences := if kind.isVar then Description.sentencesOf symbol else []
      versionNote := if kind.notesVersion then Description.versionNoteOf? symbol kind else none }
    ⟨some description, outOfScope ++ docstring.diagnostics, notices⟩

end LispDoc
