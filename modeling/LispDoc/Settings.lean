import LispDoc.Docstring.Parser
import LispDoc.Interpreter
import LispDoc.Settings.Key
import LispDoc.Settings.Toml

/-!
# Settings

Where libraries are found and how docstrings are read. Settings come in layers over the defaults: files in their order,
and then overrides in theirs. A later layer wins; tables are merged and anything else is replaced.
-/

namespace LispDoc

structure Settings where
  loadPath : List String
  /-- the suffix of source files -/
  suffix : String
  tabWidth : Nat
  /-- whether the outline of every docstring is noted -/
  debug : Bool
  deriving DecidableEq, Repr

/-- A source of settings. -/
inductive Layer where
  /-- a file, which must be there or may be missing -/
  | file (path : String) (required : Bool)
  | override (key : String) (value : Setting)

namespace Settings

/-- What holds when nothing is set. -/
def defaults : Setting := .table [
  ("interpreter", .table [("load_path", .list []), ("source_extension", .text "el")]),
  ("docstring", .table [("tab_width", .integer Line.defaultTabWidth), ("debug", .bool false)])]

/-- The file that a path names, or that it names with the suffix of settings files. -/
def findFile (files : FileTable) (path : String) : Option String :=
  if files.isFile path then some path else (Path.withSuffix? path ".toml").filter files.isFile

/-- Sets the entries of a file. A name that reads as a key is one. -/
def setEntries (root : Setting) (entries : List (String × Setting)) : Except SettingsError Setting :=
  entries.foldlM (fun root e => root.set ((SettingKey.parse e.1).getD ⟨e.1, []⟩) e.2) root

/-- The settings with those of a file. A file that is missing or no text may be passed over, a faulty one may not. -/
def addFile (files : FileTable) (path : String) (required : Bool) (root : Setting) : Except SettingsError Setting :=
  match (findFile files path).bind fun found => (files.readText found).toOption with
  | some content =>
    match Toml.parse content.toList with
    | some entries => setEntries root entries
    | none => .error .invalid
  | none => if required then .error .invalid else .ok root

/-- Adds the files among the layers. -/
def addFiles (files : FileTable) : List Layer → Setting → Except SettingsError Setting
  | [], root => .ok root
  | .file path required :: layers, root => (addFile files path required root).bind (addFiles files layers)
  | .override .. :: layers, root => addFiles files layers root

/-- The overrides among the layers, with their keys read. -/
def overrides : List Layer → Except SettingsError (List (SettingKey × Setting))
  | [] => .ok []
  | .file .. :: layers => overrides layers
  | .override key value :: layers =>
    match SettingKey.parse key with
    | some key => (overrides layers).map ((key, value) :: ·)
    | none => .error .invalid

/-- The two fields of a section, by name or in order. -/
def section? (first second : String) : Setting → Option (Setting × Setting)
  | .table entries => do return (← entries.lookup first, ← entries.lookup second)
  | .list (a :: b :: _) => some (a, b)
  | _ => none

/-- The settings that a table describes. -/
def ofTable? (root : Setting) : Option Settings := do
  let (loadPath, suffix) ← section? "load_path" "source_extension" (← root.get? "interpreter")
  let (tabWidth, debug) ← section? "tab_width" "debug" (← root.get? "docstring")
  return ⟨← loadPath.toTexts?, ← suffix.toText?, ← tabWidth.toNat?, ← debug.toBool?⟩

/-- The settings that layers give. The keys of the overrides are read before any file is. -/
def load (files : FileTable) (layers : List Layer) : Except SettingsError Settings := do
  let overrides ← overrides layers
  let root ← addFiles files layers defaults
  let root ← overrides.foldlM (fun root e => root.set e.1 e.2) root
  match ofTable? root with
  | some settings => .ok settings
  | none => .error .invalid

/-- How docstrings are read under the settings. -/
def docstringOptions (s : Settings) : Docstring.Options := { tabWidth := s.tabWidth, debug := s.debug }

/-- An interpreter under the settings. -/
def interpreter (s : Settings) (files : FileTable) (previous : Option Environment) :
    Except LispError (Interpreter × List Notice) :=
  (Interpreter.start files s.loadPath previous).map fun r => ({ r.1 with suffix := s.suffix }, r.2)

end Settings

end LispDoc
