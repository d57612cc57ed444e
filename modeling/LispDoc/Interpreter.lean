import LispDoc.Definition
import LispDoc.Sexp.FunctionQuote

/-!
# Loading libraries

Forms are handled one after the other, each by the handler of its operator; a form without one is skipped. The first
error stops, and what was recorded before it stays.

A feature is required by finding its file on the load path, handling the forms of the file and recording that the
feature is provided. A provided feature is not loaded again.
-/

namespace LispDoc

/-- Handlers by operator; the default handlers come last. -/
structure Handlers where
  added : List (String × Handler) := []

namespace Handlers

def find? (h : Handlers) (operator : String) : Option Handler :=
  (h.added.lookup operator).or (Handler.default? operator)

/-- With a handler for an operator, in place of any that it had. -/
def insert (h : Handlers) (operator : String) (handler : Handler) : Handlers := ⟨(operator, handler) :: h.added⟩

end Handlers

mutual
/-- Handles a form in the context of a file and a feature. -/
def evalForm (handlers : Handlers) (context : Provenance) (env : Environment) (form : Sexp) : Step :=
  match _h : form.sanitize with
  | .list (.symbol operator :: operands) =>
    match handlers.find? operator with
    | some (.record recorder) => recorder context operator operands env
    | some .body => evalForms handlers context env none operands
    | none => .skip env [.unsupported operator]
  | .list (head :: rest) => .skip env [.noOperator (.list (head :: rest))]
  | other => .skip env [.notACall other]
termination_by (form.size, 0)
decreasing_by
  have := Sexp.size_sanitize_le form
  rw [_h] at this
  simp only [Sexp.size, Sexp.sizeItems] at this
  exact Prod.Lex.left _ _ (by omega)

/-- Handles forms in order, up to the first error. The value is that of the last form, or `last` if there is none. -/
def evalForms (handlers : Handlers) (context : Provenance) (env : Environment) (last : Option Sexp) :
    List Sexp → Step
  | [] => ⟨env, [], .ok last⟩
  | form :: forms =>
    let step := evalForm handlers context env form
    match step.outcome with
    | .error _ => step
    | .ok value =>
      let rest := evalForms handlers context step.env value forms
      ⟨rest.env, step.notices ++ rest.notices, rest.outcome⟩
termination_by forms => (Sexp.sizeItems forms, 1)
decreasing_by
  · simp only [Sexp.sizeItems]; exact Prod.Lex.left _ _ (by omega)
  · simp only [Sexp.sizeItems]; exact Prod.Lex.left _ _ (by omega)
end

/-- Handles all forms of a text. -/
def evalText (handlers : Handlers) (context : Provenance) (env : Environment) (text : String) : Step :=
  match Sexp.readForms text with
  | .ok forms => evalForms handlers context env none forms
  | .error error => .fail env (.read error)

/-- An environment together with where features are found and how forms are handled. -/
structure Interpreter where
  env : Environment
  loadPath : List String
  suffix : String := "el"
  handlers : Handlers := {}

namespace Interpreter

/-- The environment to start from: the previous one unless it is outdated, and what is noted about it. -/
def initial (files : FileTable) (previous : Option Environment) : Environment × List Notice :=
  match previous with
  | none => (.empty, [])
  | some env => if env.isOutdated files then (.empty, [.discardedOutdated]) else (env, [])

/-- A new interpreter; the load path must not be empty. -/
def start (files : FileTable) (loadPath : List String) (previous : Option Environment) :
    Except LispError (Interpreter × List Notice) :=
  if loadPath.isEmpty then .error .emptyLoadPath
  else .ok ({ env := (initial files previous).1, loadPath := loadPath }, (initial files previous).2)

def handles (i : Interpreter) (operator : String) : Bool := (i.handlers.find? operator).isSome

/-- The file of a feature: the one it was loaded from, or the first on the load path. -/
def locate (i : Interpreter) (files : FileTable) (feature : String) : Option String :=
  match i.env.feature? feature with
  | some provided => some provided.file
  | none => (i.loadPath.map fun dir => Path.join dir (feature ++ "." ++ i.suffix)).find? files.isFile

/-- Handles the forms of a file; with the step comes the number of its top-level forms. -/
def loadIn (i : Interpreter) (files : FileTable) (file : String) (context : Provenance) : Step × Nat :=
  match files.readText file with
  | .error error => (.fail i.env (.file file error), 0)
  | .ok text =>
    match Sexp.readForms text with
    | .error error => (.fail i.env (.read error), 0)
    | .ok forms => (evalForms i.handlers context i.env none forms, forms.length)

/-- Handles the forms of a file outside any feature. -/
def load (i : Interpreter) (files : FileTable) (file : String) : Step :=
  (i.loadIn files file { file := some file }).1

/-- Loads a feature unless it is provided. -/
def require (i : Interpreter) (files : FileTable) (feature : String) : Step :=
  if i.env.isProvided feature then .skip i.env [.alreadyProvided feature]
  else
    match i.locate files feature with
    | none => .fail i.env (.libraryNotFound feature)
    | some file =>
      let (step, forms) := i.loadIn files file { file := some file, feature := some feature }
      match step.outcome with
      | .error _ => step
      | .ok _ =>
        .skip (step.env.provide files feature file) (step.notices ++ [.loaded feature file forms])

end Interpreter

end LispDoc
