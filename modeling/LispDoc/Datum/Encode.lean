import LispDoc.Datum.Basic
import LispDoc.Description

/-!
# Documents of the library's types

The document of a value names its fields in their order. A definition scope that is missing leaves no entry, while a
missing text is null. The moment at which a feature was loaded is counted from the epoch, and one before it cannot be
written.
-/

namespace LispDoc

def Source.toDatum (s : Source) : Datum := .table [("file", .ofText? s.file), ("symbol", .ofText? s.symbol)]

def Origin.toDatum (o : Origin) : Datum :=
  .table [("line", .integer o.line), ("offset", .integer o.offset), ("source", o.source.toDatum)]

def Location.toDatum (l : Location) : Datum :=
  .table [("source", l.source.toDatum), ("line", l.line.elim .null fun n => .integer n)]

def Diagnostic.toDatum (d : Diagnostic) : Datum :=
  .table [("severity", .text d.severity.name), ("message", .text d.message),
    ("location", d.location.elim .null Location.toDatum)]

def Reference.toDatum (r : Reference) : Datum :=
  .table [("role", .text r.role.key), ("target", .text r.target), ("text", .ofText? r.text)]

namespace Inline

mutual
/-- The document of a node. -/
def toDatum : Inline → Datum
  | plain text => .tagged "plain" (.text text)
  | emphasis text => .tagged "emphasis" (.text text)
  | reference r => .tagged "reference" r.toDatum
  | literal children => .tagged "literal" (.list (toData children))
  | metaVariable name => .tagged "meta-variable" (.text name)

/-- The documents of several nodes. -/
def toData : List Inline → List Datum
  | [] => []
  | node :: nodes => node.toDatum :: toData nodes
end

/-- The document of a sequence of nodes. -/
def listDatum (nodes : List Inline) : Datum := .list (toData nodes)

end Inline

namespace Block

mutual
/-- The document of a block. -/
def toDatum : Block → Datum
  | paragraph raw content origin =>
    .table [("type", .text "paragraph"), ("raw", .text raw), ("content", Inline.listDatum content),
      ("origin", origin.toDatum)]
  | definitionList items origin =>
    .table [("type", .text "definition-list"), ("items", .list (itemData items)), ("origin", origin.toDatum)]
  | blockQuote children origin =>
    .table [("type", .text "block-quote"), ("children", .list (toData children)), ("origin", origin.toDatum)]

/-- The documents of the items of a definition list. -/
def itemData : List DefinitionItem → List Datum
  | [] => []
  | .mk term termContent definition origin :: items =>
    .table [("term", .text term), ("term_content", Inline.listDatum termContent),
      ("definition", .list (toData definition)), ("origin", origin.toDatum)] :: itemData items

/-- The documents of several blocks. -/
def toData : List Block → List Datum
  | [] => []
  | block :: blocks => block.toDatum :: toData blocks
end

/-- The document of a sequence of blocks. -/
def listDatum (blocks : List Block) : Datum := .list (toData blocks)

end Block

def Parameter.toDatum (p : Parameter) : Datum := .table [("type", .text p.sort), ("name", .text p.text)]

def Description.toDatum (d : Description) : Datum :=
  .table [("name", .text d.name), ("kind", .text d.kind.name), ("signature", .text d.signature),
    ("parameters", .list (d.parameters.map Parameter.toDatum)), ("docstring", Block.listDatum d.docstring),
    ("variable_properties", .list (d.sentences.map Inline.listDatum)), ("version_note", .ofText? d.versionNote)]

def PropertyValue.toDatum : PropertyValue → Datum
  | string text => .tagged "string" (.text text)
  | integer value => .tagged "integer" (.integer value.toInt)
  | float value => .tagged "float" (.float value)
  | bool value => .tagged "bool" (.bool value)
  | empty => .text "empty"
  | symbol name => .tagged "symbol" (.text name)
  | list items => .tagged "list" (.list (items.map .text))
  | version package number => .tagged "version" (.table [("package", .text package), ("version", .text number)])

def Provenance.toDatum (p : Provenance) : Datum :=
  .table [("file", .ofText? p.file), ("feature", .ofText? p.feature)]

def Scopes.toDatum (s : Scopes) : Datum := .table (s.toList.map fun e => (e.1.name, e.2.toDatum))

def Symbol.toDatum (s : Symbol) : Datum :=
  .table [("name", .text s.name), ("scopes", s.scopes.toDatum),
    ("properties", .table (s.properties.entries.map fun e => (e.1, e.2.toDatum)))]

/-- A moment that is not before the epoch. -/
def Time.toDatum? (t : Time) : Option Datum :=
  if t.seconds < 0 then none
  else some (.table [("secs_since_epoch", .integer t.seconds.toInt), ("nanos_since_epoch", .integer t.nanos.val)])

def Feature.toDatum? (f : Feature) : Option Datum :=
  f.loadTime.toDatum?.map fun time => .table [("name", .text f.name), ("file", .text f.file), ("load_time", time)]

namespace Environment

/-- The document of an environment, unless some feature was loaded before the epoch. -/
def toDatum? (env : Environment) : Option Datum := do
  let features ← env.features.entries.mapM fun e => e.2.toDatum?.map (e.1, ·)
  return .table [("symbols", .table (env.symbols.entries.map fun e => (e.1, e.2.toDatum))),
    ("features", .table features)]

/-- Why an environment has no document. -/
def unwritable : String := "SystemTime must be later than UNIX_EPOCH"

end Environment

end LispDoc
