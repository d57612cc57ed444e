import LispDoc.Table
import LispDoc.Text.Blank

/-!
# Files

The part of a file system that the program consults, as a value: files with their bytes, directories, and the
modification times of both. Paths are walked part by part, from the working directory or, if they start with a slash,
from the root; empty parts and `.` stay where they are, `..` goes up, and only a directory can be walked into. The root,
the working directory and those above it are always there. A directory is modified when it gains or loses an entry.
-/

namespace LispDoc

/-- A moment: seconds since the epoch, which may be negative, and nanoseconds within the second. -/
structure Time where
  seconds : Int64
  nanos : Fin 1000000000
  deriving DecidableEq, Repr, Inhabited

namespace Time

def epoch : Time := ⟨0, 0⟩

/-- What a count of nanoseconds leaves over whole seconds. -/
def subsecond (nanos : Nat) : Fin 1000000000 := .ofNat _ nanos

/-- Not later. -/
def le (a b : Time) : Bool := a.seconds < b.seconds || (a.seconds == b.seconds && a.nanos ≤ b.nanos)

end Time

/-- Why a file cannot be read or written. -/
inductive FileError where
  | notFound
  | notDirectory
  | isDirectory
  | nameTooLong
  | containsNul
  | notUtf8
  deriving DecidableEq, Repr

/-- The wording of a file error. -/
def FileError.message : FileError → String
  | notFound => "No such file or directory (os error 2)"
  | notDirectory => "Not a directory (os error 20)"
  | isDirectory => "Is a directory (os error 21)"
  | nameTooLong => "File name too long (os error 36)"
  | containsNul => "file name contained an unexpected NUL byte"
  | notUtf8 => "stream did not contain valid UTF-8"

namespace Path

/-- The path of `file` seen from directory `dir`. An absolute path stays. -/
def join (dir file : String) : String :=
  if file.toList.head? = some '/' || dir.isEmpty then file
  else if dir.toList.getLast? = some '/' then dir ++ file
  else dir ++ "/" ++ file

/-- The parts between the slashes. -/
def parts (path : String) : List String := (Text.splitAt '/' path.toList).map String.ofList

/-- The parts that tell paths apart. Empty parts and `.` do not count, except for a slash or a `.` at the start. -/
def components (path : String) : List String :=
  let named := (parts path).filter fun part => !part.isEmpty && part != "."
  if path.toList.head? = some '/' then "/" :: named
  else if (parts path).head? = some "." then "." :: named
  else named

/-- Whether two paths have the same parts. -/
def same (a b : String) : Bool := components a == components b

/-- The path with `suffix` put after its last named part, if it ends in one. -/
def withSuffix? (path suffix : String) : Option String :=
  let named := (parts path).reverse.dropWhile fun part => part.isEmpty || part == "."
  match named with
  | [] => none
  | last :: before => if last == ".." then none else some ("/".intercalate (before.reverse ++ [last ++ suffix]))

end Path

/-- What a path leads to. -/
inductive Node where
  | file (content : ByteArray) (modified : Time)
  | directory (modified : Time)

/-- The node with another modification time. -/
def Node.stamped (modified : Time) : Node → Node
  | file content _ => file content modified
  | directory _ => directory modified

/-- When a node was modified. -/
def Node.modified : Node → Time
  | file _ modified => modified
  | directory modified => modified

/-- Files and directories by their plain path; `clock` is the time stamped on whatever is made. -/
structure FileTable where
  nodes : Table Node
  clock : Time
  deriving Inhabited

namespace FileTable

/-- A working directory that holds nothing. -/
def empty (clock : Time) : FileTable := ⟨.empty, clock⟩

/-- Where a path starts: the working directory is the empty list of named parts, and the root has a name of its own. -/
def origin (path : String) : List String := if path.toList.head? = some '/' then ["/"] else []

/-- The directory above. -/
def above (place : List String) : List String :=
  match place.getLast? with
  | none => [".."]
  | some ".." => place ++ [".."]
  | some "/" => place
  | some _ => place.dropLast

/-- Whether there is a directory at a list of named parts whatever the table holds. -/
def isFixed (place : List String) : Bool := place.all (· == "..") || place == ["/"]

/-- The plain path of a list of named parts. -/
def key (place : List String) : String := "/".intercalate place

/-- The node at a list of named parts. -/
def node? (t : FileTable) (place : List String) : Option Node :=
  (t.nodes.get? (key place)).or (if isFixed place then some (.directory t.clock) else none)

/-- Walks from `place` through `parts`, to the named parts of where they lead. -/
def walk (t : FileTable) (place : List String) : List String → Except FileError (List String)
  | [] => .ok place
  | part :: rest =>
    match t.node? place with
    | none => .error .notFound
    | some (.file ..) => .error .notDirectory
    | some (.directory _) =>
      if part.isEmpty || part == "." then t.walk place rest
      else if part == ".." then
        if (t.node? (above place)).isNone then .error .notFound else t.walk (above place) rest
      else if 255 < part.utf8ByteSize then .error .nameTooLong
      else if (t.node? (place ++ [part])).isNone then .error .notFound
      else t.walk (place ++ [part]) rest

/-- What can be said of a path before it is walked. -/
def checkPath (path : String) : Except FileError Unit :=
  if '\x00' ∈ path.toList then .error .containsNul
  else if path.isEmpty then .error .notFound
  else if 4096 ≤ path.utf8ByteSize then .error .nameTooLong
  else .ok ()

/-- The named parts of where a path leads. -/
def resolve (t : FileTable) (path : String) : Except FileError (List String) := do
  checkPath path
  t.walk (origin path) (Path.parts path)

/-- The node that a path leads to. -/
def lookup (t : FileTable) (path : String) : Except FileError Node := do
  match t.node? (← t.resolve path) with
  | some node => .ok node
  | none => .error .notFound

/-- The bytes of a file. -/
def readBytes (t : FileTable) (path : String) : Except FileError ByteArray := do
  match ← t.lookup path with
  | .file content _ => .ok content
  | .directory _ => .error .isDirectory

/-- The text of a file. -/
def readText (t : FileTable) (path : String) : Except FileError String := do
  match String.fromUTF8? (← t.readBytes path) with
  | some text => .ok text
  | none => .error .notUtf8

/-- Whether a path leads to a file. -/
def isFile (t : FileTable) (path : String) : Bool :=
  match t.lookup path with
  | .ok (.file ..) => true
  | _ => false

/-- Whether a path leads anywhere. -/
def leads (t : FileTable) (path : String) : Bool := (t.lookup path).isOk

/-- When the file or directory at a path was modified. -/
def modified? (t : FileTable) (path : String) : Option Time := (t.lookup path).toOption.map Node.modified

/-- Stamps the directory at a list of named parts with the time of the clock. -/
def stampDirectory (t : FileTable) (place : List String) : FileTable :=
  { t with nodes := t.nodes.insert (key place) (.directory t.clock) }

/-- Puts a node at a list of named parts. If there was none, its directory gains an entry. -/
def setNode (t : FileTable) (place : List String) (node : Node) : FileTable :=
  let t' := if (t.node? place).isSome then t else t.stampDirectory place.dropLast
  { t' with nodes := t'.nodes.insert (key place) node }

/-- Walks from `place` through `parts` and makes the directories that are missing, unless a file is in the way. -/
def makeWay (t : FileTable) (place : List String) : List String → Option (FileTable × List String)
  | [] => some (t, place)
  | part :: rest =>
    if part.isEmpty || part == "." then t.makeWay place rest
    else if part == ".." then t.makeWay (above place) rest
    else
      match t.node? (place ++ [part]) with
      | none => (t.setNode (place ++ [part]) (.directory t.clock)).makeWay (place ++ [part]) rest
      | some (.directory _) => t.makeWay (place ++ [part]) rest
      | some (.file ..) => none

/-- Makes a directory, with all directories on the way. -/
def makeDirectory (t : FileTable) (path : String) : FileTable :=
  ((t.makeWay (origin path) (Path.parts path)).map Prod.fst).getD t

/-- Puts a file at a path that can name one, with all directories on the way. -/
def putFile (t : FileTable) (path : String) (content : ByteArray) (modified : Time) : FileTable :=
  let parts := Path.parts path
  let last := parts.getLast?.getD ""
  match t.makeWay (origin path) parts.dropLast with
  | none => t
  | some (t, directory) =>
    if last.isEmpty || last == "." || last == ".." then t
    else
      match t.node? (directory ++ [last]) with
      | some (.directory _) => t
      | _ => t.setNode (directory ++ [last]) (.file content modified)

/-- Sets the modification time of what is at a path. -/
def touch (t : FileTable) (path : String) (modified : Time) : FileTable :=
  match t.resolve path with
  | .error _ => t
  | .ok place =>
    match t.node? place with
    | some node => t.setNode place (node.stamped modified)
    | none => t

/-- Removes what is at a path and below it. -/
def remove (t : FileTable) (path : String) : FileTable :=
  match t.resolve path with
  | .error _ => t
  | .ok place =>
    let kept (e : String × Node) : Bool := e.1 != key place && !(key place ++ "/").toList.isPrefixOf e.1.toList
    if isFixed place then t
    else stampDirectory { t with nodes := ⟨t.nodes.entries.filter kept, t.nodes.sorted.filter _⟩ } place.dropLast

/-- Writes a text to a file, which is made if its directory exists. A path that ends in a slash names no file. -/
def writeText (t : FileTable) (path text : String) : Except FileError FileTable := do
  checkPath path
  let slashes := (Path.parts path).reverse.takeWhile (·.isEmpty)
  let parts := ((Path.parts path).reverse.dropWhile (·.isEmpty)).reverse
  let directory ← t.walk (origin path) parts.dropLast
  let last := parts.getLast?.getD ""
  match t.node? directory with
  | some (.directory _) =>
    if !slashes.isEmpty || last.isEmpty || last == "." || last == ".." then .error .isDirectory
    else if 255 < last.utf8ByteSize then .error .nameTooLong
    else
      match t.node? (directory ++ [last]) with
      | some (.directory _) => .error .isDirectory
      | _ => .ok (t.setNode (directory ++ [last]) (.file text.toUTF8 t.clock))
  | some (.file ..) => .error .notDirectory
  | none => .error .notFound

end FileTable

end LispDoc
