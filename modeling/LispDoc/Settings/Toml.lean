import LispDoc.Settings.Value

/-!
# Reading TOML

A file is a sequence of lines: blank ones, comments, table headers, and keys with values. A header names the table that
the keys after it belong to. A name may be given only one value, and a table may have only one header; a dotted key may
add to a table that dotted keys made, and to no other. Dates and times are kept as texts. Values are nested, and keys
dotted, only up to a bound.

One name is set aside: a table that starts with it is no table but the date or time that its text spells.
-/

namespace LispDoc.Toml

/-- Arrays and inline tables are nested less deep than this, and a key has fewer names. -/
def maxDepth : Nat := 80

/-! ### Characters and lines -/

def isSpace (c : Char) : Bool := c == ' ' || c == '\t'

def skipSpace (cs : List Char) : List Char := cs.dropWhile isSpace

/-- The characters of comments and strings: the tab and whatever is no control. -/
def isText (c : Char) : Bool := c == '\t' || (0x20 ≤ c.toNat && c.toNat != 0x7F)

/-- What follows a line break. -/
def newline? : List Char → Option (List Char)
  | '\n' :: cs => some cs
  | '\r' :: '\n' :: cs => some cs
  | _ => none

/-- A comment, if one stands here, and the end of the line or of the file; what follows it. -/
def lineEnd? (cs : List Char) : Option (List Char) :=
  let rest := match skipSpace cs with
    | '#' :: comment => comment.dropWhile isText
    | rest => rest
  if rest.isEmpty then some [] else newline? rest

/-! ### Strings -/

def hexValue? (c : Char) : Option Nat :=
  if c.isDigit then some (c.toNat - '0'.toNat)
  else if 'a' ≤ c && c ≤ 'f' then some (c.toNat - 'a'.toNat + 10)
  else if 'A' ≤ c && c ≤ 'F' then some (c.toNat - 'A'.toNat + 10)
  else none

/-- The character with a code point of `width` hexadecimal digits. -/
def codePoint? (width : Nat) (cs : List Char) : Option Char := do
  let digits ← (cs.take width).mapM hexValue?
  let n := digits.foldl (fun n d => 16 * n + d) 0
  if digits.length == width && n.isValidChar then some (Char.ofNat n) else none

/-- The character of an escape after its backslash, and the number of characters used. -/
def escape? : List Char → Option (Char × Nat)
  | 'b' :: _ => some ('\x08', 1)
  | 't' :: _ => some ('\t', 1)
  | 'n' :: _ => some ('\n', 1)
  | 'f' :: _ => some ('\x0c', 1)
  | 'r' :: _ => some ('\r', 1)
  | '"' :: _ => some ('"', 1)
  | '\\' :: _ => some ('\\', 1)
  | 'u' :: cs => (codePoint? 4 cs).map (·, 5)
  | 'U' :: cs => (codePoint? 8 cs).map (·, 9)
  | _ => none

/-- A string on one line after its opening quote: its text, and what follows the closing quote. -/
def basicTail? : List Char → Option (List Char × List Char)
  | [] => none
  | c :: cs =>
    if c = '"' then some ([], cs)
    else if c = '\\' then
      match escape? cs with
      | none => none
      | some (d, used) => (basicTail? (cs.drop used)).map fun r => (d :: r.1, r.2)
    else if isText c then (basicTail? cs).map fun r => (c :: r.1, r.2)
    else none
termination_by cs => cs.length
decreasing_by
  · simp only [List.length_drop, List.length_cons]; omega
  · simp

/-- A string without escapes on one line, after its opening quote. -/
def literalTail? (cs : List Char) : Option (List Char × List Char) :=
  let text := cs.takeWhile fun c => c != '\x27' && isText c
  match cs.dropWhile fun c => c != '\x27' && isText c with
  | '\x27' :: rest => some (text, rest)
  | _ => none

/-- Without the white space and line breaks at the front. -/
def skipBreaks : List Char → List Char
  | ' ' :: cs => skipBreaks cs
  | '\t' :: cs => skipBreaks cs
  | '\n' :: cs => skipBreaks cs
  | '\r' :: '\n' :: cs => skipBreaks cs
  | cs => cs

theorem skipBreaks_length_le (cs : List Char) : (skipBreaks cs).length ≤ cs.length := by
  fun_induction skipBreaks cs <;> simp <;> omega

/-- Closing quotes: with three or more in a row, up to two more belong to the text. -/
def closing? (quote : Char) (cs : List Char) : Option (List Char × List Char) :=
  let run := min 5 (cs.takeWhile (· == quote)).length
  if 3 ≤ run then some (List.replicate (run - 3) quote, cs.drop run) else none

/-- A string over several lines, after its opening quotes. With `escapes` a backslash starts an escape, or joins the
line with the next text. -/
def multiTail? (quote : Char) (escapes : Bool) : List Char → Option (List Char × List Char)
  | [] => none
  | c :: cs =>
    match closing? quote (c :: cs) with
    | some r => some r
    | none =>
      if c = '\n' then (multiTail? quote escapes cs).map fun r => ('\n' :: r.1, r.2)
      else if c = '\r' then
        match cs with
        | '\n' :: rest => (multiTail? quote escapes rest).map fun r => ('\n' :: r.1, r.2)
        | _ => none
      else if escapes && c = '\\' then
        if (newline? (skipSpace cs)).isSome then multiTail? quote escapes (skipBreaks cs)
        else
          match escape? cs with
          | none => none
          | some (d, used) => (multiTail? quote escapes (cs.drop used)).map fun r => (d :: r.1, r.2)
      else if isText c then (multiTail? quote escapes cs).map fun r => (c :: r.1, r.2)
      else none
termination_by cs => cs.length
decreasing_by
  · simp
  · simp only [List.length_cons]; omega
  · have := skipBreaks_length_le cs
    simp only [List.length_cons]; omega
  · simp only [List.length_drop, List.length_cons]; omega
  · simp

/-- The text after opening quotes, without a line break that follows them directly. -/
def afterOpening (cs : List Char) : List Char := (newline? cs).getD cs

/-- A string of any kind. -/
def string? : List Char → Option (String × List Char)
  | '"' :: '"' :: '"' :: cs => (multiTail? '"' true (afterOpening cs)).map fun r => (String.ofList r.1, r.2)
  | '"' :: cs => (basicTail? cs).map fun r => (String.ofList r.1, r.2)
  | '\x27' :: '\x27' :: '\x27' :: cs =>
    (multiTail? '\x27' false (afterOpening cs)).map fun r => (String.ofList r.1, r.2)
  | '\x27' :: cs => (literalTail? cs).map fun r => (String.ofList r.1, r.2)
  | _ => none

/-! ### Keys -/

def isBareKey (c : Char) : Bool := c.isAlphanum || c == '_' || c == '-'

/-- One name of a key. -/
def name? : List Char → Option (String × List Char)
  | '"' :: cs => (basicTail? cs).map fun r => (String.ofList r.1, r.2)
  | '\x27' :: cs => (literalTail? cs).map fun r => (String.ofList r.1, r.2)
  | cs =>
    let name := cs.takeWhile isBareKey
    if name.isEmpty then none else some (String.ofList name, cs.dropWhile isBareKey)

/-- Names with dots between them and white space around each. The fuel bounds their number. -/
def names? : Nat → List Char → Option (List String × List Char)
  | 0, _ => none
  | fuel + 1, cs =>
    match name? (skipSpace cs) with
    | none => none
    | some (name, rest) =>
      match skipSpace rest with
      | '.' :: more => (names? fuel more).map fun r => (name :: r.1, r.2)
      | more => some ([name], more)

/-- The names of a dotted key. -/
def key? (cs : List Char) : Option (List String × List Char) := names? (maxDepth - 1) cs

/-! ### Numbers -/

/-- Digits that satisfy a condition, with single underscores between them. -/
def digits? (isDigit : Char → Bool) : List Char → Option (List Char × List Char)
  | [] => none
  | c :: cs =>
    if isDigit c then
      match cs with
      | '_' :: d :: rest =>
        if isDigit d then (digits? isDigit (d :: rest)).map fun r => (c :: r.1, r.2) else some ([c], cs)
      | d :: rest => if isDigit d then (digits? isDigit (d :: rest)).map fun r => (c :: r.1, r.2) else some ([c], cs)
      | [] => some ([c], [])
    else none

/-- The whole part of a decimal number: no zero in front of other digits. -/
def whole? : List Char → Option (List Char × List Char)
  | '0' :: cs => some (['0'], cs)
  | cs => digits? Char.isDigit cs

/-- Digits in another base after their mark. -/
def marked? (base : Nat) (isDigit : Char → Bool) (cs : List Char) : Option (Setting × List Char) := do
  let (ds, rest) ← digits? isDigit cs
  let n := ds.foldl (fun n d => base * n + (hexValue? d).getD 0) 0
  if Digits.fitsInt64 n then some (.integer n, rest) else none

/-- A whole number. -/
def integer? (cs : List Char) : Option (Setting × List Char) :=
  match cs with
  | '0' :: 'x' :: rest => marked? 16 (fun c => (hexValue? c).isSome) rest
  | '0' :: 'o' :: rest => marked? 8 (fun c => '0' ≤ c && c ≤ '7') rest
  | '0' :: 'b' :: rest => marked? 2 (fun c => c == '0' || c == '1') rest
  | _ => do
    let (negative, unsigned) := Digits.sign cs
    let (ds, rest) ← whole? unsigned
    let n := Digits.signed negative (Digits.toNat ds)
    if Digits.fitsInt64 n then some (.integer n, rest) else none

/-- An exponent part: its value, and what follows. -/
def exponent? : List Char → Option (Int × List Char)
  | c :: cs =>
    if c == 'e' || c == 'E' then
      let (negative, unsigned) := Digits.sign cs
      (digits? Char.isDigit unsigned).map fun r => (Digits.signed negative (Digits.toNat r.1), r.2)
    else none
  | [] => none

/-- The number with these parts, unless it is too large. -/
def float (negative : Bool) (digits : List Char) (scale : Int) : Option Setting :=
  let x := Binary64.ofDecimal negative (Digits.toNat digits) scale
  if x.isInfinite && !negative then none else some (.float x)

/-- Infinity and what is no number. -/
def specialFloat? (negative : Bool) (cs : List Char) : Option (Setting × List Char) :=
  if ['i', 'n', 'f'].isPrefixOf cs then some (.float (.infinity negative), cs.drop 3)
  else if ['n', 'a', 'n'].isPrefixOf cs then some (.float .notANumber, cs.drop 3)
  else none

/-- A number with a fraction or an exponent part. -/
def float? (cs : List Char) : Option (Setting × List Char) :=
  let (negative, unsigned) := Digits.sign cs
  (specialFloat? negative unsigned).or do
    let (whole, rest) ← whole? unsigned
    match rest with
    | '.' :: more =>
      let (fraction, rest) ← digits? Char.isDigit more
      let (exponent, rest) := (exponent? rest).getD (0, rest)
      return (← float negative (whole ++ fraction) (exponent - fraction.length), rest)
    | _ =>
      let (exponent, rest) ← exponent? rest
      return (← float negative whole exponent, rest)

/-! ### Dates and times -/

/-- A number of exactly `width` digits within bounds. -/
def fixed? (width low high : Nat) (cs : List Char) : Option (List Char × List Char) :=
  let ds := cs.take width
  if ds.length == width && ds.all Char.isDigit && low ≤ Digits.toNat ds && Digits.toNat ds ≤ high then
    some (ds, cs.drop width)
  else none

/-- One given character. -/
def char? (c : Char) : List Char → Option (List Char)
  | d :: cs => if d == c then some cs else none
  | [] => none

def daysIn (year month : Nat) : Nat :=
  if month == 2 then if year % 4 == 0 && (year % 100 != 0 || year % 400 == 0) then 29 else 28
  else if month == 4 || month == 6 || month == 9 || month == 11 then 30
  else 31

/-- A date: year, month and day. -/
def date? (cs : List Char) : Option (List Char × List Char) := do
  let (year, cs) ← fixed? 4 0 9999 cs
  let (month, cs) ← fixed? 2 1 12 (← char? '-' cs)
  let (day, cs) ← fixed? 2 1 (daysIn (Digits.toNat year) (Digits.toNat month)) (← char? '-' cs)
  return (year ++ '-' :: month ++ '-' :: day, cs)

/-- A fraction of a second, of which nine digits count. -/
def fraction (cs : List Char) : List Char × List Char :=
  match cs with
  | '.' :: more =>
    let ds := more.takeWhile Char.isDigit
    let kept := ((ds.take 9).reverse.dropWhile (· == '0')).reverse
    if ds.isEmpty then ([], cs) else (if kept.isEmpty then [] else '.' :: kept, more.dropWhile Char.isDigit)
  | _ => ([], cs)

/-- A time: hours, minutes, seconds and a fraction. -/
def time? (cs : List Char) : Option (List Char × List Char) := do
  let (hour, cs) ← fixed? 2 0 23 cs
  let (minute, cs) ← fixed? 2 0 59 (← char? ':' cs)
  let (second, cs) ← fixed? 2 0 60 (← char? ':' cs)
  let (part, cs) := fraction cs
  return (hour ++ ':' :: minute ++ ':' :: second ++ part, cs)

/-- The distance from universal time, which may be missing. -/
def offset (cs : List Char) : List Char × List Char :=
  match cs with
  | c :: more =>
    if c == 'Z' || c == 'z' then (['Z'], more)
    else if c == '+' || c == '-' then
      let found := do
        let (hour, cs) ← fixed? 2 0 23 more
        let (minute, cs) ← fixed? 2 0 59 (← char? ':' cs)
        let sign := if Digits.toNat (hour ++ minute) == 0 then '+' else c
        return (sign :: hour ++ ':' :: minute, cs)
      found.getD ([], cs)
    else ([], cs)
  | [] => ([], cs)

/-- A time after a date. -/
def timeAfter (cs : List Char) : List Char × List Char :=
  match cs with
  | c :: more =>
    if c == 'T' || c == 't' || c == ' ' then
      match time? more with
      | some (time, rest) => ('T' :: time ++ (offset rest).1, (offset rest).2)
      | none => ([], cs)
    else ([], cs)
  | [] => ([], cs)

/-- A date, a time, or both. -/
def moment? (cs : List Char) : Option (List Char × List Char) :=
  match date? cs with
  | some (date, rest) => some (date ++ (timeAfter rest).1, (timeAfter rest).2)
  | none => time? cs

/-- The date or time that a whole text spells. -/
def wholeMoment? (text : String) : Option Setting :=
  match moment? text.toList with
  | some (moment, []) => some (.text (String.ofList moment))
  | _ => none

/-- The name of a table that stands for a date or time. -/
def momentName : String := "$__toml_private_datetime"

/-! ### Tables under construction -/

/-- What a name stands for while a file is read. -/
inductive Entry where
  | scalar (value : Setting)
  | moment (text : String)
  | list (items : List Entry)
  /-- a table between braces, to which nothing can be added -/
  | inline (entries : List (String × Entry))
  /-- whether the table has no header of its own, and whether dotted keys made it -/
  | table (implied dotted : Bool) (entries : List (String × Entry))
  /-- tables with one header each, oldest first -/
  | tables (tables : List (List (String × Entry)))

abbrev Entries := List (String × Entry)

/-- The text of a string. -/
def Entry.text? : Entry → Option String
  | scalar (.text text) => some text
  | _ => none

mutual
/-- The value of an entry. -/
def Entry.toSetting? : Entry → Option Setting
  | .scalar value => some value
  | .moment text => some (.text text)
  | .list items => (itemSettings? items).map .list
  | .inline entries => tableSetting? entries
  | .table _ _ entries => tableSetting? entries
  | .tables tables => (tableSettings? tables).map .list

/-- The value of a table, which its first name may turn into a date or time. -/
def tableSetting? : List (String × Entry) → Option Setting
  | [] => some (.table [])
  | (name, entry) :: rest =>
    if name == momentName then entry.text?.bind wholeMoment?
    else
      match entry.toSetting?, settings? rest with
      | some value, some values => some (.table ((name, value) :: values))
      | _, _ => none

def settings? : List (String × Entry) → Option (List (String × Setting))
  | [] => some []
  | (name, entry) :: rest =>
    match entry.toSetting?, settings? rest with
    | some value, some values => some ((name, value) :: values)
    | _, _ => none

def itemSettings? : List Entry → Option (List Setting)
  | [] => some []
  | item :: rest =>
    match item.toSetting?, itemSettings? rest with
    | some value, some values => some (value :: values)
    | _, _ => none

def tableSettings? : List (List (String × Entry)) → Option (List Setting)
  | [] => some []
  | entries :: rest =>
    match tableSetting? entries, tableSettings? rest with
    | some value, some values => some (value :: values)
    | _, _ => none
end

/-- The entries with that of one name replaced or added. -/
def put (name : String) (entry : Entry) : Entries → Entries
  | [] => [(name, entry)]
  | (n, e) :: rest => if n == name then (name, entry) :: rest else (n, e) :: put name entry rest

/-- Changes the entries of the table at the end of a path, making tables on the way. The change is told whether dotted
keys made the table. A dotted path does not lead into a table with a header. -/
def descend (dotted : Bool) (change : Bool → Entries → Option Entries) : List String → Bool → Entries → Option Entries
  | [], made, entries => change made entries
  | name :: path, _, entries =>
    match entries.lookup name with
    | none => (descend dotted change path dotted []).map fun es => put name (.table true dotted es) entries
    | some (.tables tables) =>
      match tables.getLast? with
      | none => none
      | some last =>
        (descend dotted change path false last).map fun es => put name (.tables (tables.dropLast ++ [es])) entries
    | some (.table implied made es) =>
      if dotted && !implied then none
      else (descend dotted change path made es).map fun es => put name (.table implied made es) entries
    | some _ => none

/-- Gives a name a value. -/
def addNew (name : String) (value : Entry) (entries : Entries) : Option Entries :=
  if (entries.lookup name).isSome then none else some (put name value entries)

/-- Gives a dotted key a value. -/
def addKey (key : List String) (value : Entry) (entries : Entries) : Option Entries :=
  match key.getLast? with
  | none => none
  | some name =>
    let path := key.dropLast
    descend true (fun made es => if made == path.isEmpty then none else addNew name value es) path false entries

/-- Opens the table of a header. A table that headers of inner tables have made moves to the end. -/
def openTable (header : List String) (root : Entries) : Option Entries :=
  match header.getLast? with
  | none => none
  | some name =>
    descend false (fun _ es =>
      match es.lookup name with
      | none => some (put name (.table false false []) es)
      | some (.table true false inner) => some (es.filter (·.1 != name) ++ [(name, .table false false inner)])
      | some _ => none) header.dropLast false root

/-- Opens a further table of a list of tables. -/
def openListTable (header : List String) (root : Entries) : Option Entries :=
  match header.getLast? with
  | none => none
  | some name =>
    descend false (fun _ es =>
      match es.lookup name with
      | none => some (put name (.tables [[]]) es)
      | some (.tables tables) => some (put name (.tables (tables ++ [[]])) es)
      | some _ => none) header.dropLast false root

/-! ### Values -/

/-- White space, comments and line breaks inside an array. -/
def skipFiller : Nat → List Char → Option (List Char)
  | 0, _ => none
  | fuel + 1, cs =>
    match skipSpace cs with
    | '#' :: comment =>
      match newline? (comment.dropWhile isText) with
      | some rest => skipFiller fuel rest
      | none => none
    | rest =>
      match newline? rest with
      | some rest => skipFiller fuel rest
      | none => some rest

mutual
/-- A value at the front, inside `depth` arrays and inline tables, and what follows it. The fuel bounds the number of
characters read. -/
def value? : Nat → Nat → List Char → Option (Entry × List Char)
  | _, 0, _ => none
  | depth, fuel + 1, cs =>
    match cs with
    | [] => none
    | c :: rest =>
      if c == '"' || c == '\x27' then (string? cs).map fun r => (.scalar (.text r.1), r.2)
      else if c == '[' then
        if maxDepth ≤ depth + 1 then none else (items? (depth + 1) fuel rest).map fun r => (.list r.1, r.2)
      else if c == '\x7b' then
        if maxDepth ≤ depth + 1 then none
        else
          match skipSpace rest with
          | '\x7d' :: rest => some (.inline [], rest)
          | rest => (pairs? (depth + 1) fuel [] rest).map fun r => (.inline r.1, r.2)
      else if ['t', 'r', 'u', 'e'].isPrefixOf cs then some (.scalar (.bool true), cs.drop 4)
      else if ['f', 'a', 'l', 's', 'e'].isPrefixOf cs then some (.scalar (.bool false), cs.drop 5)
      else
        match moment? cs with
        | some (moment, rest) => some (.moment (String.ofList moment), rest)
        | none => ((float? cs).or (integer? cs)).map fun r => (.scalar r.1, r.2)

/-- The items of an array up to its closing bracket; a comma may follow the last. -/
def items? : Nat → Nat → List Char → Option (List Entry × List Char)
  | _, 0, _ => none
  | depth, fuel + 1, cs =>
    match skipFiller fuel cs with
    | none => none
    | some (']' :: rest) => some ([], rest)
    | some rest =>
      match value? depth fuel rest with
      | none => none
      | some (item, rest) =>
        match skipFiller fuel rest with
        | some (',' :: rest) => (items? depth fuel rest).map fun r => (item :: r.1, r.2)
        | some (']' :: rest) => some ([item], rest)
        | _ => none

/-- The pairs of an inline table, at least one, up to its closing brace. -/
def pairs? : Nat → Nat → Entries → List Char → Option (Entries × List Char)
  | _, 0, _, _ => none
  | depth, fuel + 1, entries, cs =>
    match key? cs with
    | some (key, '=' :: rest) =>
      match value? depth fuel (skipSpace rest) with
      | none => none
      | some (value, rest) =>
        match addKey key value entries with
        | none => none
        | some entries =>
          match skipSpace rest with
          | ',' :: rest => pairs? depth fuel entries rest
          | '\x7d' :: rest => some (entries, rest)
          | _ => none
    | _ => none
end

/-! ### Files -/

/-- The header in front: its key, whether it opens a further table of a list, and the rest of the line. -/
def header? : List Char → Option (List String × Bool × List Char)
  | '[' :: '[' :: cs =>
    match key? cs with
    | some (key, ']' :: ']' :: rest) => some (key, true, rest)
    | _ => none
  | '[' :: cs =>
    match key? cs with
    | some (key, ']' :: rest) => some (key, false, rest)
    | _ => none
  | _ => none

/-- Reads the lines of a file below a header. -/
def lines? (header : List String) (root : Entries) : Nat → List Char → Option Entries
  | 0, _ => none
  | fuel + 1, cs =>
    match skipSpace cs with
    | [] => some root
    | c :: rest =>
      if c == '#' || c == '\n' || c == '\r' then
        match lineEnd? (c :: rest) with
        | some rest => lines? header root fuel rest
        | none => none
      else if c == '[' then
        match header? (c :: rest) with
        | none => none
        | some (key, listed, rest) =>
          match lineEnd? rest, if listed then openListTable key root else openTable key root with
          | some rest, some root => lines? key root fuel rest
          | _, _ => none
      else
        match key? (c :: rest) with
        | some (key, '=' :: rest) =>
          match value? 0 fuel (skipSpace rest) with
          | none => none
          | some (value, rest) =>
            match lineEnd? rest, descend false (fun _ es => addKey key value es) header false root with
            | some rest, some root => lines? header root fuel rest
            | _, _ => none
        | _ => none

/-- The table that a text describes; it may not be a date or time. -/
def parse (text : List Char) : Option (List (String × Setting)) :=
  let cs := match text with
    | '\uFEFF' :: rest => rest
    | _ => text
  match (lines? [] [] (2 * cs.length + 4) cs).bind tableSetting? with
  | some (.table entries) => some entries
  | _ => none

end LispDoc.Toml
