import LispDoc.Datum.Encode
import LispDoc.Datum.Json
import LispDoc.Json.Reader

/-!
# Snapshots of an environment

An environment is saved as the JSON text of its document and restored from it. The reader is somewhat more liberal than
the writer: a record may be given as the array of its fields, members it does not know are ignored, and of two entries
of a table with one key the later counts. A field that is given twice is an error, and so is a missing one, except for
the file and the feature of a provenance.
-/

namespace LispDoc.Snapshot

/-! ### Records -/

/-- The values of the named fields of a record. With `closed`, a member with another name is an error. -/
def fields? (closed : Bool) (names : List String) : Json → Option (List (Option Json))
  | .array items => if items.length = names.length then some (items.map some) else none
  | .object members =>
    if closed && members.any fun m => !names.contains m.1 then none
    else names.mapM fun name =>
      match members.filter (·.1 == name) with
      | [] => some none
      | [m] => some (some m.2)
      | _ => none
  | _ => none

/-- A record of two fields that must be there. -/
def pair? (closed : Bool) (first second : String) (value : Json) : Option (Json × Json) :=
  match fields? closed [first, second] value with
  | some [some a, some b] => some (a, b)
  | _ => none

/-- A record of three fields that must be there. -/
def triple? (first second third : String) (value : Json) : Option (Json × Json × Json) :=
  match fields? false [first, second, third] value with
  | some [some a, some b, some c] => some (a, b, c)
  | _ => none

/-- A text that may be null or missing. -/
def text? : Option Json → Option (Option String)
  | none => some none
  | some .null => some none
  | some (.string text) => some (some text)
  | some _ => none

/-- A table of values. -/
def table? {α : Type} (read : Json → Option α) : Json → Option (Table α)
  | .object members => (members.mapM fun m => (read m.2).map (m.1, ·)).map .ofList
  | _ => none

/-! ### The types of an environment -/

/-- The value of a property. The value without a payload is its name, or has a null payload. -/
def property? : Json → Option PropertyValue
  | .string "empty" => some .empty
  | .object [("empty", .null)] => some .empty
  | .object [("string", .string text)] => some (.string text)
  | .object [("integer", value)] => value.toInt64?.map .integer
  | .object [("float", value)] => value.toBinary64?.map .float
  | .object [("bool", .bool value)] => some (.bool value)
  | .object [("symbol", .string name)] => some (.symbol name)
  | .object [("list", .array items)] => (items.mapM Json.string?).map .list
  | .object [("version", value)] => do
    let (package, version) ← pair? false "package" "version" value
    return .version (← package.string?) (← version.string?)
  | _ => none

def provenance? (value : Json) : Option Provenance :=
  match fields? false ["file", "feature"] value with
  | some [file, feature] => do return ⟨← text? file, ← text? feature⟩
  | _ => none

/-- The provenances of the scopes with a definition. -/
def scopes? : Json → Option Scopes
  | .object members => do
    let entries ← members.mapM fun m => do return (← Scope.ofName? m.1, ← provenance? m.2)
    return entries.foldl (fun s e => s.insert e.1 e.2) {}
  | _ => none

def symbol? (value : Json) : Option Symbol := do
  let (name, scopes, properties) ← triple? "name" "scopes" "properties" value
  return ⟨← name.string?, ← scopes? scopes, ← table? property? properties⟩

/-- Seconds and nanoseconds since the epoch. Whole seconds among the nanoseconds are carried over, and the seconds must
fit in a signed 64 bit word. -/
def time? (value : Json) : Option Time := do
  let (seconds, nanos) ← pair? true "secs_since_epoch" "nanos_since_epoch" value
  let seconds ← seconds.toNatBelow? Digits.wordBound
  let nanos ← nanos.toNatBelow? 0x100000000
  let total : Nat := seconds + nanos / 1000000000
  if Digits.fitsInt64 total then some ⟨.ofInt total, Time.subsecond nanos⟩ else none

def feature? (value : Json) : Option Feature := do
  let (name, file, time) ← triple? "name" "file" "load_time" value
  return ⟨← name.string?, ← file.string?, ← time? time⟩

def environment? (value : Json) : Option Environment := do
  let (symbols, features) ← pair? false "symbols" "features" value
  return ⟨← table? symbol? symbols, ← table? feature? features⟩

/-! ### Texts and files -/

/-- The text of a snapshot, unless the environment cannot be written. -/
def write? (env : Environment) : Option String :=
  env.toDatum?.map fun d => String.ofList (d.toJson.pretty 0)

/-- The environment of a snapshot's text. -/
def read? (text : String) : Option Environment := (Json.parse text).bind environment?

/-- Saves an environment to a file. -/
def save (files : FileTable) (env : Environment) (path : String) : Except LispError FileTable :=
  match write? env with
  | none => .error .snapshot
  | some text =>
    match files.writeText path text with
    | .ok files => .ok files
    | .error error => .error (.file path error)

/-- Restores an environment from a file. -/
def load (files : FileTable) (path : String) : Except LispError Environment :=
  match files.readText path with
  | .error error => .error (.file path error)
  | .ok text =>
    match read? text with
    | some env => .ok env
    | none => .error .snapshot

end LispDoc.Snapshot
