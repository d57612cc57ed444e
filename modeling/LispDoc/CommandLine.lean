import LispDoc.Datum.Yaml
import LispDoc.Settings
import LispDoc.Snapshot

/-!
# The command line

The arguments name features to load, and options say where to find them and what to print: the symbol table, or the
description of one symbol. A run is a function of the arguments and the files: it answers the exit code, what is
printed, and the files afterwards, among which a snapshot may have been written.
-/

namespace LispDoc.CommandLine

/-! ### Arguments -/

/-- What the arguments ask for. -/
structure Request where
  features : List String := []
  loadPath : List String := []
  config : Option String := none
  format : Option String := none
  symbol : Option String := none
  kind : Option String := none
  snapshot : Option String := none
  verbose : Bool := false
  deriving DecidableEq, Repr

/-- Why there is nothing to run. -/
inductive Stop where
  /-- the arguments make no sense -/
  | refused
  | help
  | version
  deriving DecidableEq, Repr

/-- An option. -/
inductive Flag where
  | loadPath
  | config
  | format
  | symbol
  | kind
  | snapshot
  | verbose
  | help
  | version
  deriving DecidableEq, Repr

namespace Flag

/-- The option with a long name. -/
def ofName? (name : String) : Option Flag :=
  [("load-path", loadPath), ("config", config), ("format", format), ("symbol", symbol), ("kind", kind),
    ("snapshot", snapshot), ("verbose", verbose), ("help", help), ("version", version)].lookup name

/-- The option with a short name. -/
def ofLetter? (letter : Char) : Option Flag :=
  [('L', loadPath), ('c', config), ('f', format), ('v', verbose), ('h', help), ('V', version)].lookup letter

/-- Whether a value belongs to the option. -/
def takesValue : Flag → Bool
  | verbose => false
  | help => false
  | version => false
  | _ => true

/-- Sets a field that may be set once. -/
def once (old : Option String) (value : String) : Except Stop (Option String) :=
  if old.isSome then .error .refused else .ok (some value)

/-- Takes an option with its value. -/
def apply (flag : Flag) (value : String) (r : Request) : Except Stop Request :=
  match flag with
  | loadPath => .ok { r with loadPath := r.loadPath ++ [value] }
  | config => (once r.config value).map fun v => { r with config := v }
  | format => (once r.format value).map fun v => { r with format := v }
  | symbol => (once r.symbol value).map fun v => { r with symbol := v }
  | kind => (once r.kind value).map fun v => { r with kind := v }
  | snapshot => (once r.snapshot value).map fun v => { r with snapshot := v }
  | verbose => if r.verbose then .error .refused else .ok { r with verbose := true }
  | help => .error .help
  | version => .error .version

end Flag

/-- Whether an argument can be the value of an option: it is no option itself. -/
def isValue (argument : String) : Bool := argument.toList.head? != some '-' || argument == "-"

/-- What a group of short options leaves open: nothing, or an option that still needs a value. -/
def letters (r : Request) : List Char → Except Stop (Request × Option Flag)
  | [] => .ok (r, none)
  | c :: cs =>
    match Flag.ofLetter? c with
    | none => .error .refused
    | some flag =>
      if flag.takesValue then
        match cs with
        | [] => .ok (r, some flag)
        | '=' :: value => (flag.apply (String.ofList value) r).map (·, none)
        | value => (flag.apply (String.ofList value) r).map (·, none)
      else
        match flag.apply "" r with
        | .ok r => letters r cs
        | .error stop => .error stop

/-- A long option, with the value after an equals sign if there is one. -/
def long (r : Request) (text : List Char) : Except Stop (Request × Option Flag) :=
  match Flag.ofName? (String.ofList (text.takeWhile (· != '='))) with
  | none => .error .refused
  | some flag =>
    match text.dropWhile (· != '='), flag.takesValue with
    | [], true => .ok (r, some flag)
    | [], false => (flag.apply "" r).map (·, none)
    | _ :: value, true => (flag.apply (String.ofList value) r).map (·, none)
    | _ :: _, false => .error .refused

/-- Takes the arguments in order. -/
def arguments (r : Request) : List String → Except Stop Request
  | [] => .ok r
  | argument :: rest =>
    match argument.toList with
    | ['-', '-'] => .ok { r with features := r.features ++ rest }
    | '-' :: c :: cs =>
      match if c == '-' then long r cs else letters r (c :: cs) with
      | .error stop => .error stop
      | .ok (r, none) => arguments r rest
      | .ok (r, some flag) =>
        match rest with
        | value :: rest =>
          if isValue value then
            match flag.apply value r with
            | .ok r => arguments r rest
            | .error stop => .error stop
          else .error .refused
        | [] => .error .refused
    | _ => arguments { r with features := r.features ++ [argument] } rest

/-- What the arguments ask for; at least one feature is needed. -/
def parse (args : List String) : Except Stop Request := do
  let r ← arguments {} args
  if r.features.isEmpty then .error .refused else .ok r

/-! ### Output -/

/-- What a run prints, and its exit code. -/
structure Output where
  exit : Nat
  out : String
  err : String
  deriving DecidableEq, Repr

def formats : List String := ["json", "yaml", "tree"]

/-- The lines of a log; only warnings and errors are shown unless it is verbose. -/
def logText (verbose : Bool) (notices : List Notice) : String :=
  String.join ((notices.filter fun n => verbose || n.isWarning).map fun n => n.line ++ "\n")

/-- The symbol table as a list of features and symbols. -/
def listing (env : Environment) : String :=
  String.join (env.features.values.map fun f => "feature " ++ f.name ++ " (" ++ f.file ++ ")\n") ++
  String.join (env.symbols.values.map fun s =>
    s.name ++ " [" ++ ", ".intercalate (s.scopes.toList.map fun e => e.1.name) ++ "]\n")

/-- A description with the outline of its docstring. -/
def summary (d : Description) : String :=
  d.kind.label ++ " " ++ d.signature ++ "\n" ++ Outline.ofBlocks d.docstring ++
  String.join (d.sentences.map fun s => "* " ++ Inline.textOf s ++ "\n") ++
  d.versionNote.elim "" fun note => "* " ++ note ++ "\n"

/-- A document in one of the formats. -/
def document (format : String) (d : Datum) : String :=
  if format == "yaml" then d.toYaml else String.ofList (d.toJson.pretty 0) ++ "\n"

/-! ### Running -/

/-- The exit code of a run that a fault ends. -/
def faultCode : Nat := 101

/-- A warning without a place. -/
def warn (message : String) : Notice := .reported (.warning message none)

/-- The environment that a snapshot holds, if there is one that can be read. -/
def restore (files : FileTable) (snapshot : Option String) : Option Environment × List Notice :=
  match snapshot.filter files.leads with
  | none => (none, [])
  | some path =>
    match Snapshot.load files path with
    | .ok env => (some env, [])
    | .error error => (none, [warn error.message])

/-- Requires features in order and goes on after errors. -/
def requireAll (files : FileTable) (i : Interpreter) : List String → Environment × List Notice
  | [] => (i.env, [])
  | feature :: features =>
    let step := i.require files feature
    let failure := match step.outcome with
      | .ok _ => []
      | .error error => [warn ("Failed to load feature " ++ feature ++ ": " ++ error.message)]
    let rest := requireAll files { i with env := step.env } features
    (rest.1, step.notices ++ failure ++ rest.2)

/-- Saves a snapshot if one is asked for. -/
def save (files : FileTable) (env : Environment) (snapshot : Option String) : FileTable × List Notice :=
  match snapshot with
  | none => (files, [])
  | some path =>
    match Snapshot.save files env path with
    | .ok files => (files, [])
    | .error error => (files, [warn error.message])

/-- What is printed about a symbol table. -/
def showEnvironment (verbose : Bool) (format : String) (env : Environment) (log : List Notice) : Output :=
  if format == "tree" then ⟨0, listing env, logText verbose log⟩
  else
    match env.toDatum? with
    | some d => ⟨0, document format d, logText verbose log⟩
    | none => ⟨1, "", logText verbose log ++ "Error formatting output: " ++ Environment.unwritable ++ "\n"⟩

/-- What is printed about a symbol. -/
def showSymbol (r : Request) (settings : Settings) (format : String) (env : Environment) (name : String)
    (log : List Notice) : Output :=
  let kindName := r.kind.getD "function"
  match ObjectKind.ofName? kindName with
  | none => ⟨1, "", logText r.verbose log ++ ObjectKind.unknownMessage kindName ++ "\n"⟩
  | some kind =>
    let text := (env.lookup name).bind (Description.docstringOf? · kind)
    if text.any fun text => !Line.fits settings.tabWidth text.toList then
      ⟨faultCode, "", logText r.verbose log ++ Line.overflowMessage ++ "\n"⟩
    else
      let described := describe settings.docstringOptions env kind name
      let err := logText r.verbose (log ++ described.log)
      match described.description with
      | none => ⟨1, "", err⟩
      | some d => ⟨0, if format == "tree" then summary d else document format d.toDatum, err⟩

/-- The settings of a request: its file over the defaults, and its directories after those of the file. -/
def settings (files : FileTable) (r : Request) : Except SettingsError Settings :=
  (Settings.load files (r.config.toList.map (Layer.file · true))).map fun s =>
    { s with loadPath := s.loadPath ++ r.loadPath }

/-- Loads what a request asks for and prints it. -/
def load (files : FileTable) (r : Request) (settings : Settings) (format : String) : Output × FileTable :=
  let (previous, restored) := restore files r.snapshot
  match settings.interpreter files previous with
  | .error error =>
    (⟨1, "", logText r.verbose restored ++ "Cannot start interpreter: " ++ error.message ++ "\n"⟩, files)
  | .ok (interpreter, started) =>
    let (env, loaded) := requireAll files interpreter r.features
    let (files, saved) := save files env r.snapshot
    let log := restored ++ started ++ loaded ++ saved
    (match r.symbol with
      | some name => showSymbol r settings format env name log
      | none => showEnvironment r.verbose format env log, files)

/-- Runs a request. -/
def perform (files : FileTable) (r : Request) : Output × FileTable :=
  let format := r.format.getD "tree"
  if !formats.contains format then
    (⟨1, "", "Unknown format '" ++ format ++ "'\nAvailable formats: " ++ ", ".intercalate formats ++ "\n"⟩, files)
  else
    match settings files r with
    | .error .invalid => (⟨1, "", SettingsError.message .invalid ++ "\n"⟩, files)
    | .error error => (⟨faultCode, "", error.message ++ "\n"⟩, files)
    | .ok settings => load files r settings format

/-- The name and the version of the program. -/
def versionText : String := "elisp-autodoc 0.1.0\n"

/-- What the arguments may be. -/
def helpText : String :=
  "Extract symbols and docstrings from Emacs Lisp libraries\n\n" ++
  "Usage: elisp-autodoc [OPTIONS] <features>...\n\n" ++
  "Arguments:\n" ++
  "  <features>...  Features to require, e.g. 'foo' for foo.el\n\n" ++
  "Options:\n" ++
  "  -L, --load-path <load-path>  Directory to search for features (may be repeated)\n" ++
  "  -c, --config <config>        Configuration file layered over the defaults\n" ++
  "  -f, --format <format>        Output format: json, yaml or tree [default: tree]\n" ++
  "      --symbol <symbol>        Describe this symbol instead of printing the symbol table\n" ++
  "      --kind <kind>            Object kind to describe the symbol as (function, variable, face, ...) " ++
  "[default: function]\n" ++
  "      --snapshot <snapshot>    Environment snapshot to restore before and save after loading\n" ++
  "  -v, --verbose                Log debug output to stderr\n" ++
  "  -h, --help                   Print help\n" ++
  "  -V, --version                Print version\n"

/-- Runs the program on its arguments; when there is nothing to run, the answer says why. -/
def run (files : FileTable) (args : List String) : Except Stop Output × FileTable :=
  match parse args with
  | .error stop => (.error stop, files)
  | .ok r => ((perform files r).map .ok id)

/-! ### Files that a run looks at -/

/-- The paths that a run looks at, as far as the files known so far tell. -/
def consulted (files : FileTable) (args : List String) : List String :=
  match parse args with
  | .error _ => []
  | .ok r =>
    let config := r.config.toList.flatMap fun path => path :: (Path.withSuffix? path ".toml").toList
    let previous := (restore files r.snapshot).1
    let known := previous.toList.flatMap fun env => env.features.values.map (·.file)
    let candidates := (settings files r).toOption.toList.flatMap fun s =>
      r.features.flatMap fun feature => s.loadPath.map fun dir => Path.join dir (feature ++ "." ++ s.suffix)
    config ++ r.snapshot.toList ++ known ++ candidates

end LispDoc.CommandLine
