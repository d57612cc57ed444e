import LispDoc.Diagnostic
import LispDoc.Sexp.Printer
import LispDoc.Text.Quoted

/-!
# Notices

What the program reports about its own work, mostly about what it skips. A notice says what happened; its level, its
wording and its fields are functions of it. `Notice.line` is its form in a log.
-/

namespace LispDoc

inductive Level where
  | debug
  | info
  | warn
  | error
  deriving DecidableEq, Repr

def Level.name : Level → String
  | debug => "DEBUG"
  | info => "INFO"
  | warn => "WARN"
  | error => "ERROR"

/-- The value of a field: text that stands as it is, text that is quoted in a log, or a number. -/
inductive FieldValue where
  | shown (text : String)
  | name (text : String)
  | count (n : Nat)
  deriving DecidableEq, Repr

namespace FieldValue

/-- The value as plain text. -/
def text : FieldValue → String
  | shown text => text
  | name text => text
  | count n => String.ofList (Digits.ofNat n)

/-- The value as it stands in a log line. -/
def logged : FieldValue → String
  | name text => Text.quoted text
  | value => value.text

end FieldValue

inductive Notice where
  /-- a form that is no list, or an empty one -/
  | notACall (form : Sexp)
  /-- a form whose head is no symbol -/
  | noOperator (form : Sexp)
  | unsupported (operator : String)
  | alreadyProvided (feature : String)
  | loaded (feature file : String) (forms : Nat)
  | discardedOutdated
  /-- a property list entry whose key is no symbol -/
  | skippedKey (key : Sexp)
  | ignoredSafe (value : Sexp)
  | ignoredVersion (value : Sexp)
  | ignoredKey (key : String)
  | putOperands (count : Nat)
  | putComputed (name property : Sexp)
  | putValue (symbol property : String) (value : Sexp)
  /-- a docstring and its outline -/
  | parsedDocstring (source : Source) (outline : String)
  | reported (diagnostic : Diagnostic)

namespace Notice

def level : Notice → Level
  | loaded .. => .info
  | discardedOutdated => .info
  | reported d =>
    match d.severity with
    | .error => .error
    | .warning => .warn
    | .info => .info
  | _ => .debug

def message : Notice → String
  | notACall _ => "Skipping form that is not an operator call"
  | noOperator _ => "Skipping form without a symbol operator"
  | unsupported _ => "Skipping unsupported form"
  | alreadyProvided _ => "Feature already provided"
  | loaded .. => "Loaded feature"
  | discardedOutdated => "Discarding outdated environment"
  | skippedKey _ => "Skipping plist entry with non-symbol key"
  | ignoredSafe _ => "Ignoring :safe without a quoted predicate"
  | ignoredVersion _ => "Ignoring malformed :package-version"
  | ignoredKey _ => "Ignoring plist key"
  | putOperands _ => "Skipping put with missing operands"
  | putComputed .. => "Skipping put on computed symbol or property"
  | putValue .. => "Skipping put with non-constant value"
  | parsedDocstring _ outline => "Parsed docstring\n" ++ outline
  | reported d => d.message

def fields : Notice → List (String × FieldValue)
  | notACall form => [("form", .shown form.print)]
  | noOperator form => [("form", .shown form.print)]
  | unsupported operator => [("operator", .name operator)]
  | alreadyProvided feature => [("feature", .name feature)]
  | loaded feature file forms => [("feature", .name feature), ("file", .shown file), ("forms", .count forms)]
  | discardedOutdated => []
  | skippedKey key => [("key", .shown key.print)]
  | ignoredSafe value => [("value", .shown value.print)]
  | ignoredVersion value => [("value", .shown value.print)]
  | ignoredKey key => [("key", .name key)]
  | putOperands count => [("operands", .count count)]
  | putComputed name property => [("name", .shown name.print), ("property", .shown property.print)]
  | putValue symbol property value =>
    [("symbol", .name symbol), ("property", .name property), ("value", .shown value.print)]
  | parsedDocstring source _ => [("source", .shown source.describe)]
  | reported d => [("location", .shown (d.location.elim "" Location.describe))]

/-- The part of the program that a log line names. -/
def target : Notice → String
  | notACall _ | noOperator _ | unsupported _ | alreadyProvided _ | loaded .. | discardedOutdated =>
    "elisp_autodoc::lisp::interpreter"
  | skippedKey _ | ignoredSafe _ | ignoredVersion _ | ignoredKey _ => "elisp_autodoc::lisp::custom"
  | putOperands _ | putComputed .. | putValue .. => "elisp_autodoc::lisp::forms"
  | parsedDocstring .. => "elisp_autodoc::docstring::parser"
  | reported _ => "elisp_autodoc::diagnostics"

/-- A character of a message in a log. What a terminal could take for the start of a command is spelled out. -/
def messageChar (c : Char) : List Char :=
  match c with
  | '\x07' => ['\\', 'x', '0', '7']
  | '\x08' => ['\\', 'x', '0', '8']
  | '\x0c' => ['\\', 'x', '0', 'c']
  | '\x1b' => ['\\', 'x', '1', 'b']
  | '\x7f' => ['\\', 'x', '7', 'f']
  | _ =>
    if 0x80 ≤ c.toNat && c.toNat ≤ 0x9F then ['\\', 'u', '\x7b'] ++ Nat.toDigits 16 c.toNat ++ ['\x7d'] else [c]

/-- The log line of a notice. -/
def line (n : Notice) : String :=
  n.level.name ++ " " ++ n.target ++ ": " ++ String.ofList (n.message.toList.flatMap messageChar) ++
    String.join (n.fields.map fun f => " " ++ f.1 ++ "=" ++ f.2.logged)

/-- Whether a log that is not verbose shows the notice: warnings and errors. -/
def isWarning (n : Notice) : Bool := n.level == .warn || n.level == .error

end Notice

end LispDoc
