import LispDoc.Files
import LispDoc.Sexp.Printer
import LispDoc.Sexp.Reader
import LispDoc.Symbol

/-!
# The environment

The symbol table and the table of features that have been loaded. Changing a symbol interns it first, so that every
symbol of the table has a valid name.

A feature remembers the modification time of its file. It is outdated when the file has been modified at that time or
later, and never when the file is gone.

Environments that agree record the same: `Environment.agrees` compares files by the parts of their paths and floats by
their value, and the rest by equality.
-/

namespace LispDoc

/-- Why something could not be loaded or recorded. -/
inductive LispError where
  | invalidSymbolName (text : String)
  | libraryNotFound (feature : String)
  | emptyLoadPath
  | malformedDefinitionSite (detail : String)
  | read (error : ReadError)
  | file (path : String) (error : FileError)
  | snapshot
  deriving DecidableEq, Repr

/-- The wording of an error. -/
def LispError.message : LispError → String
  | invalidSymbolName text => "Invalid symbol name: " ++ text
  | libraryNotFound feature => "Cannot locate library: " ++ feature
  | emptyLoadPath => "Empty load path!"
  | malformedDefinitionSite detail => "Malformed definition site: " ++ detail
  | read error => error.message
  | file path error => "Cannot read " ++ path ++ ": " ++ error.message
  | snapshot => "Invalid environment snapshot"

/-- Whether two provenances name the same file and the same feature. -/
def Provenance.agrees (p q : Provenance) : Bool :=
  p.file.map Path.components == q.file.map Path.components && p.feature == q.feature

/-- Whether two symbols have the same name, definitions and properties. -/
def Symbol.agrees (s t : Symbol) : Bool :=
  s.name == t.name && Scope.all.all (fun scope =>
    match s.provenance? scope, t.provenance? scope with
    | some p, some q => p.agrees q
    | none, none => true
    | _, _ => false) && s.properties.agrees PropertyValue.agrees t.properties

/-- A loaded unit of source. -/
structure Feature where
  name : String
  file : String
  loadTime : Time
  deriving DecidableEq, Repr, Inhabited

namespace Feature

/-- A feature stamped with the modification time of its file, or the epoch if there is no file. -/
def stamp (files : FileTable) (name file : String) : Feature := ⟨name, file, (files.modified? file).getD .epoch⟩

/-- Whether two features have the same name, file and load time. -/
def agrees (f g : Feature) : Bool := f.name == g.name && Path.same f.file g.file && f.loadTime == g.loadTime

/-- Whether the file was modified at the load time or later. -/
def isOutdated (files : FileTable) (f : Feature) : Bool := (files.modified? f.file).any fun m => f.loadTime.le m

end Feature

structure Environment where
  symbols : Table Symbol
  features : Table Feature
  deriving DecidableEq, Inhabited

namespace Environment

/-- Nothing defined, nothing loaded. -/
def empty : Environment := ⟨.empty, .empty⟩

def lookup (env : Environment) (name : String) : Option Symbol := env.symbols.get? name

/-- The symbol with a name, or a new one. -/
def symbolOf (env : Environment) (name : String) : Symbol := (env.lookup name).getD { name := name }

/-- Changes the symbol with a name, which is made on first use. -/
def update (env : Environment) (name : String) (change : Symbol → Symbol) : Except LispError Environment :=
  if isSymbolName name then .ok { env with symbols := env.symbols.insert name (change (env.symbolOf name)) }
  else .error (.invalidSymbolName name)

/-- Makes sure that there is a symbol with a name. -/
def intern (env : Environment) (name : String) : Except LispError Environment := env.update name id

/-- The name that a form in the place of a name gives. -/
def nameOf (form : Sexp) : Except LispError String :=
  match form with
  | .symbol name => .ok name
  | other => .error (.invalidSymbolName other.print)

/-- Changes the symbol that a form names. -/
def updateForm (env : Environment) (form : Sexp) (change : Symbol → Symbol) : Except LispError Environment := do
  env.update (← nameOf form) change

/-- Records where the definition of a name in a scope came from. -/
def define (env : Environment) (name : String) (scope : Scope) (p : Provenance) : Except LispError Environment :=
  env.update name (·.define scope p)

def feature? (env : Environment) (name : String) : Option Feature := env.features.get? name

def isProvided (env : Environment) (name : String) : Bool := env.features.contains name

/-- Records that a feature has been loaded from a file. -/
def provide (env : Environment) (files : FileTable) (name file : String) : Environment :=
  { env with features := env.features.insert name (.stamp files name file) }

/-- Whether two environments record the same. -/
def agrees (a b : Environment) : Bool :=
  a.symbols.agrees Symbol.agrees b.symbols && a.features.agrees Feature.agrees b.features

/-- Whether some feature is outdated. -/
def isOutdated (env : Environment) (files : FileTable) : Bool := env.features.values.any (·.isOutdated files)

end Environment

end LispDoc
