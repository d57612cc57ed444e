import LispDoc.Number.Digits

/-!
# Diagnostics

A problem found in a docstring or about a symbol: how severe it is, what it says and where it is. Problems never stop
the work; they are collected in the order in which they are found.
-/

namespace LispDoc

inductive Severity where
  | error
  | warning
  | info
  deriving DecidableEq, Repr

def Severity.name : Severity → String
  | error => "error"
  | warning => "warning"
  | info => "info"

/-- The severity with a name. -/
def Severity.ofName? (name : String) : Option Severity :=
  [error, warning, info].find? (·.name == name)

/-- Where a text came from: the file and the symbol that it documents. Either may be unknown. -/
structure Source where
  file : Option String := none
  symbol : Option String := none
  deriving DecidableEq, Repr, Inhabited

def Source.describe : Source → String
  | ⟨some file, some symbol⟩ => file ++ ":" ++ symbol
  | ⟨some file, none⟩ => file
  | ⟨none, some symbol⟩ => symbol
  | ⟨none, none⟩ => "<unknown>"

/-- A source and a line of its text, counted from one. -/
structure Location where
  source : Source
  line : Option Nat
  deriving DecidableEq, Repr

/-- A line of a source. -/
def Source.atLine (source : Source) (line : Nat) : Location := ⟨source, some line⟩

def Location.describe (location : Location) : String :=
  match location.line with
  | some line => location.source.describe ++ " line " ++ String.ofList (Digits.ofNat line)
  | none => location.source.describe

structure Diagnostic where
  severity : Severity
  message : String
  location : Option Location
  deriving DecidableEq, Repr

namespace Diagnostic

/-- A warning about a place. -/
def warning (message : String) (location : Option Location) : Diagnostic := ⟨.warning, message, location⟩

/-- A diagnostic on one line. -/
def describe (d : Diagnostic) : String :=
  match d.location with
  | some location => d.severity.name ++ ": " ++ d.message ++ " (" ++ location.describe ++ ")"
  | none => d.severity.name ++ ": " ++ d.message

end Diagnostic

end LispDoc
