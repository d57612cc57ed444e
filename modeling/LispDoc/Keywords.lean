import LispDoc.Notice
import LispDoc.Symbol

/-!
# Property lists

The tail of a variable or face definition is a sequence of keys and values. Keys are symbols; an entry with another key
is skipped, and so is a last key without a value. Three keys become properties: `:safe` with a quoted predicate,
`:risky` with a true value and `:package-version` with a quoted pair of a symbol and a string.
-/

namespace LispDoc.Keywords

/-- Keys and values, two by two. -/
def entries : List Sexp → List (Sexp × Sexp)
  | key :: value :: rest => (key, value) :: entries rest
  | _ => []

/-- The entries whose key is a symbol. -/
def pairs (items : List Sexp) : List (String × Sexp) :=
  (entries items).filterMap fun e => e.1.symbol?.map (·, e.2)

/-- A notice for each entry whose key is no symbol. -/
def skipped (items : List Sexp) : List Notice :=
  (entries items).filterMap fun e => if e.1.symbol?.isNone then some (.skippedKey e.1) else none

/-- The package and version of `'(package . "version")`. -/
def packageVersion? (form : Sexp) : Option (String × String) := do
  let (car, cdr) ← (← form.unquote?).cons?
  return (← car.symbol?, ← cdr.string?)

/-- The property that an entry gives. -/
def property? (key : String) (value : Sexp) : Option (String × PropertyValue) :=
  if key = ":safe" then value.quotedSymbol?.map fun predicate => (Property.safeLocalVariable, .symbol predicate)
  else if key = ":risky" then if value.isTruthy then some (Property.riskyLocalVariable, .bool true) else none
  else if key = ":package-version" then
    (packageVersion? value).map fun v => (Property.customPackageVersion, .version v.1 v.2)
  else none

/-- What is noted about an entry that gives no property. -/
def notice? (key : String) (value : Sexp) : Option Notice :=
  if key = ":safe" then if value.quotedSymbol?.isNone then some (.ignoredSafe value) else none
  else if key = ":risky" then none
  else if key = ":package-version" then if (packageVersion? value).isNone then some (.ignoredVersion value) else none
  else some (.ignoredKey key)

/-- The properties that a property list gives; of two entries for one property the later counts. -/
def properties (items : List Sexp) : Table PropertyValue :=
  .ofList ((pairs items).filterMap fun p => property? p.1 p.2)

/-- What is noted about a property list: first the keys that are no symbols, then the entries without effect. -/
def notices (items : List Sexp) : List Notice :=
  skipped items ++ (pairs items).filterMap fun p => notice? p.1 p.2

end LispDoc.Keywords
