import LispDoc.Settings.Value

/-!
# Keys of settings

A key leads from table to table, by names with dots between them, or into a list, by an index in brackets. Setting a
value at a key makes what is missing on the way. A table that is set does not replace the table it meets: its entries
are set one by one. Names are set in lower case, so that upper and lower case do not matter in keys.

An index may count from the end of a list, but not beyond its start; and a list cannot grow without bound.
-/

namespace LispDoc

/-- Why settings cannot be had. -/
inductive SettingsError where
  /-- a file cannot be read, or a key or a value makes no sense -/
  | invalid
  /-- an index counts back beyond the start of a list -/
  | beforeStart
  /-- an index lies beyond what a list can hold -/
  | tooLong
  deriving DecidableEq, Repr

/-- The wording of an error. -/
def SettingsError.message : SettingsError → String
  | invalid => "Configuration error"
  | beforeStart => "attempt to subtract with overflow"
  | tooLong => "capacity overflow"

/-- A step of a key. -/
inductive KeyStep where
  | name (name : String)
  /-- counted from the end when negative -/
  | index (index : Int)
  deriving DecidableEq, Repr

/-- A key: the name it starts with, and the steps after it. -/
structure SettingKey where
  head : String
  steps : List KeyStep
  deriving DecidableEq, Repr

namespace SettingKey

/-- What names are made of. -/
def isNameChar (c : Char) : Bool := c.isAlphanum || c == ' ' || c == '_' || c == '-'

def isIndexSpace (c : Char) : Bool := c == ' ' || c == '\t'

/-- The index between brackets, within a signed 64 bit word. -/
def index? (cs : List Char) : Option Int :=
  let inner := ((cs.dropWhile isIndexSpace).reverse.dropWhile isIndexSpace).reverse
  match inner with
  | '+' :: _ => none
  | _ => (Digits.toInt64? inner).map Int64.toInt

/-- The steps that a text spells. -/
def steps? : List Char → Option (List KeyStep)
  | [] => some []
  | c :: cs =>
    if c = '.' then
      let name := cs.takeWhile isNameChar
      if name.isEmpty then none
      else (steps? (cs.dropWhile isNameChar)).map (.name (String.ofList name) :: ·)
    else if c = '[' then
      match _h : cs.dropWhile (· != ']') with
      | [] => none
      | _ :: rest =>
        match index? (cs.takeWhile (· != ']')) with
        | none => none
        | some index => (steps? rest).map (.index index :: ·)
    else none
termination_by cs => cs.length
decreasing_by
  · have := (List.dropWhile_sublist isNameChar (l := cs)).length_le
    simp only [List.length_cons]; omega
  · have := (List.dropWhile_sublist (· != ']') (l := cs)).length_le
    rw [_h] at this
    simp only [List.length_cons] at this ⊢; omega

/-- Reads a key. -/
def parse (text : String) : Option SettingKey :=
  let name := text.toList.takeWhile isNameChar
  if name.isEmpty then none
  else (steps? (text.toList.dropWhile isNameChar)).map fun steps => ⟨String.ofList name, steps⟩

end SettingKey

namespace Setting

/-- The entries of a table; anything else has none. -/
def entries : Setting → List (String × Setting)
  | table entries => entries
  | _ => []

/-- The items of a list; anything else has none. -/
def items : Setting → List Setting
  | list items => items
  | _ => []

/-- The value of a name. -/
def get? (name : String) (s : Setting) : Option Setting := s.entries.lookup name

/-- The entries with the value of one name replaced. -/
def put (name : String) (value : Setting) : List (String × Setting) → List (String × Setting)
  | [] => [(name, value)]
  | (n, v) :: rest => if n == name then (name, value) :: rest else (n, v) :: put name value rest

mutual
/-- What becomes of a value when another is set in its place. An empty table only fills a place that is not set. -/
def merge (old : Setting) : Setting → Setting
  | table [] =>
    match old with
    | nil => table []
    | set => set
  | table (entry :: entries) => table (mergeEntries old.entries (entry :: entries))
  | value => value

/-- Sets entries one by one. -/
def mergeEntries (old : List (String × Setting)) : List (String × Setting) → List (String × Setting)
  | [] => old
  | (name, value) :: rest =>
    let name := Text.toLower name
    mergeEntries (put name (merge ((old.lookup name).getD Setting.nil) value) old) rest
end

/-- The number of items that a list can hold. -/
def maxItems : Nat := 96076792050570581

/-- The place in a list of `length` items that an index points at; the list may have to grow to reach it. -/
def place (index : Int) (length : Nat) : Except SettingsError Nat :=
  if 0 ≤ index then if maxItems ≤ index.toNat then .error .tooLong else .ok index.toNat
  else if length < index.natAbs then .error .beforeStart
  else .ok (length - index.natAbs)

/-- Puts a value at a place of a list, which grows as needed. -/
def putAt (place : Nat) (value : Setting) (items : List Setting) : List Setting :=
  (items ++ List.replicate (place + 1 - items.length) Setting.nil).set place value

/-- Sets a value after some steps. -/
def setSteps (value : Setting) : List KeyStep → Setting → Except SettingsError Setting
  | [], old => .ok (merge old value)
  | [.index index], old => (place index old.items.length).map fun place => list (putAt place value old.items)
  | .name name :: steps, old =>
    let name := Text.toLower name
    (setSteps value steps ((old.get? name).getD .nil)).map fun inner => table (put name inner old.entries)
  | .index index :: steps, old =>
    match place index old.items.length with
    | .error error => .error error
    | .ok place =>
      (setSteps value steps (old.items[place]?.getD .nil)).map fun inner => list (putAt place inner old.items)

/-- Sets a value at a key. -/
def set (old : Setting) (key : SettingKey) (value : Setting) : Except SettingsError Setting :=
  setSteps value (.name key.head :: key.steps) old

end Setting

end LispDoc
