import LispDoc.Proofs.Evaluation.Effects

/-!
# Requiring a feature

A feature can fail to load in four ways: its file is not found, cannot be read or does not parse, or one of its forms
fails (`Interpreter.Requiring`). The first three leave the environment alone. The last leaves what was recorded up to
and including the form that failed, and the feature is not provided. Otherwise the feature is provided, and whatever was
defined on the way has its file and its name for provenance (`Interpreter.AllOrNothing`).

The default handlers never fail in one of the first three ways (`Declaration.beforeForms_of_evalForms`), so that the
error alone tells how far the feature came.
-/

namespace LispDoc

/-- Whether an error comes up before any form is handled. -/
def LispError.beforeForms : LispError → Bool
  | libraryNotFound _ => true
  | file .. => true
  | read _ => true
  | _ => false

theorem Step.ending_of_error {step : Step} {error : LispError} (h : step.outcome = .error error) :
    step.ending = (step.env, some error) := by
  rw [Step.ending, h]

/-! ### Where forms stop -/

/-- Handling forms stops with an error at one of them: those before it go through, and those after it are not
handled. -/
def Stops (handlers : Handlers) (context : Provenance) (env : Environment) (last : Option Sexp) (forms : List Sexp)
    (error : LispError) (step : Step) : Prop :=
  ∃ done form rest value, forms = done ++ form :: rest ∧
    (evalForms handlers context env last done).outcome = .ok value ∧
    (evalForm handlers context (evalForms handlers context env last done).env form).outcome = .error error ∧
    step = evalForms handlers context env last (done ++ [form])

section

variable {handlers : Handlers} {context : Provenance} {env : Environment} {last : Option Sexp} {form : Sexp}
  {forms : List Sexp} {error : LispError}

private theorem evalForms_cons_of_error (h : (evalForm handlers context env form).outcome = .error error) :
    evalForms handlers context env last (form :: forms) = evalForm handlers context env form := by
  rw [evalForms, h]

private theorem evalForms_cons_of_ok {value : Option Sexp}
    (h : (evalForm handlers context env form).outcome = .ok value) :
    evalForms handlers context env last (form :: forms) =
      ⟨(evalForms handlers context (evalForm handlers context env form).env value forms).env,
        (evalForm handlers context env form).notices ++
          (evalForms handlers context (evalForm handlers context env form).env value forms).notices,
        (evalForms handlers context (evalForm handlers context env form).env value forms).outcome⟩ := by
  rw [evalForms, h]

/-- Forms that fail have a first one among them that fails. -/
private theorem stops_of_outcome (h : (evalForms handlers context env last forms).outcome = .error error) :
    Stops handlers context env last forms error (evalForms handlers context env last forms) := by
  induction forms generalizing env last with
  | nil =>
    rw [evalForms] at h
    cases h
  | cons first forms ih =>
    cases hfirst : (evalForm handlers context env first).outcome with
    | error e =>
      rw [evalForms_cons_of_error hfirst, hfirst] at h
      refine ⟨[], first, forms, last, rfl, by rw [evalForms], ?_, ?_⟩
      · rw [evalForms, hfirst, h]
      · rw [List.nil_append, evalForms_cons_of_error hfirst, evalForms_cons_of_error hfirst]
    | ok value =>
      rw [evalForms_cons_of_ok hfirst] at h
      obtain ⟨done, form, rest, v, hforms, hdone, hform, heq⟩ := ih h
      refine ⟨first :: done, form, rest, v, by rw [hforms, List.cons_append], ?_, ?_, ?_⟩
      · rw [evalForms_cons_of_ok hfirst]
        exact hdone
      · rw [evalForms_cons_of_ok hfirst]
        exact hform
      · rw [List.cons_append, evalForms_cons_of_ok hfirst, evalForms_cons_of_ok hfirst, heq]

end

namespace Declaration

variable {context : Provenance} {env : Environment} {error : LispError}

/-- The same for forms that stand for nothing but themselves. -/
def Stops (context : Provenance) (env : Environment) (calls : List Sexp) (error : LispError) (after : Environment) :
    Prop :=
  ∃ done call rest before, calls = done ++ call :: rest ∧ performAll context env done = (before, none) ∧
    perform context before call = (after, some error)

private theorem stops_of_performAll {calls : List Sexp} {after : Environment}
    (h : performAll context env calls = (after, some error)) : Stops context env calls error after := by
  induction calls generalizing env with
  | nil => cases h
  | cons first calls ih =>
    rw [performAll] at h
    rcases hfirst : perform context env first with ⟨between, _ | e⟩
    · rw [hfirst] at h
      obtain ⟨done, call, rest, before, rfl, hdone, hcall⟩ := ih h
      refine ⟨first :: done, call, rest, before, rfl, ?_, hcall⟩
      rw [performAll, hfirst]
      exact hdone
    · rw [hfirst] at h
      exact ⟨[], first, calls, env, rfl, rfl, hfirst.trans h⟩

/-! ### The errors of forms -/

private theorem beforeForms_of_nameFault? {operator : String} {operands : List Sexp}
    (h : nameFault? operator operands = some error) : error.beforeForms = false := by
  unfold nameFault? at h
  split at h
  · obtain rfl := Option.some.inj h
    rfl
  · cases h
  · obtain rfl := Option.some.inj h
    rfl

private theorem beforeForms_of_fault? {form : Sexp} (h : fault? form = some error) : error.beforeForms = false := by
  unfold fault? at h
  split at h
  · split at h
    · exact beforeForms_of_nameFault? h
    split at h
    · split at h
      · obtain rfl := Option.some.inj h
        rfl
      · split at h
        · cases h
        · obtain rfl := Option.some.inj h
          rfl
    · cases h
  · cases h

private theorem beforeForms_of_error? {form : Sexp} (h : error? form = some error) : error.beforeForms = false := by
  rcases Option.or_eq_some_iff.1 h with h | ⟨-, h⟩
  · exact beforeForms_of_fault? h
  · obtain ⟨w, -, rfl⟩ := Option.map_eq_some_iff.1 h
    rfl

/-- Forms under the default handlers fail for what they are. -/
theorem beforeForms_of_evalForms {last : Option Sexp} {forms : List Sexp}
    (h : (evalForms {} context env last forms).outcome = .error error) : error.beforeForms = false := by
  have hending := Step.ending_of_error h
  rw [ending_eq] at hending
  obtain ⟨form, -, herror⟩ := List.exists_of_findSome?_eq_some (congrArg Prod.snd hending)
  exact beforeForms_of_error? herror

/-- Forms provide no features. -/
theorem features_evalForms (context : Provenance) (env : Environment) (last : Option Sexp) (forms : List Sexp) :
    (evalForms {} context env last forms).env.features = env.features := by
  rw [env_evalForms_eq, Environment.features_writeAll]

private theorem stops_of_evalForms {last : Option Sexp} {forms : List Sexp}
    (h : (evalForms {} context env last forms).outcome = .error error) :
    Stops context env (Sexp.callsAll forms) error (evalForms {} context env last forms).env :=
  stops_of_performAll (by rw [← ending_evalForms_calls context env last, Step.ending_of_error h])

end Declaration

/-! ### Ways to require a feature -/

theorem Environment.feature?_of_not_isProvided {env : Environment} {feature : String}
    (h : env.isProvided feature = false) : env.feature? feature = none :=
  Option.not_isSome_iff_eq_none.1 (Bool.eq_false_iff.1 h)

namespace Interpreter

/-- What is defined while a feature is loaded comes from its file. -/
def origin (file feature : String) : Provenance := { file := some file, feature := some feature }

/-- The file of a feature is found, and it holds forms. -/
def Finds (i : Interpreter) (files : FileTable) (feature file : String) (forms : List Sexp) : Prop :=
  i.locate files feature = some file ∧ ∃ text, files.readText file = .ok text ∧ Sexp.readForms text = .ok forms

/-- How requiring a feature goes, whatever the handlers. -/
inductive Requiring (i : Interpreter) (files : FileTable) (feature : String) : Step → Prop where
  | provided (hp : i.env.isProvided feature = true) :
    Requiring i files feature (.skip i.env [.alreadyProvided feature])
  | notFound (hp : i.env.isProvided feature = false) (hfile : i.locate files feature = none) :
    Requiring i files feature (.fail i.env (.libraryNotFound feature))
  | unreadable {file : String} {error : FileError} (hp : i.env.isProvided feature = false)
    (hfile : i.locate files feature = some file) (htext : files.readText file = .error error) :
    Requiring i files feature (.fail i.env (.file file error))
  | unparsable {file text : String} {error : ReadError} (hp : i.env.isProvided feature = false)
    (hfile : i.locate files feature = some file) (htext : files.readText file = .ok text)
    (hforms : Sexp.readForms text = .error error) : Requiring i files feature (.fail i.env (.read error))
  | stopped {file : String} {forms : List Sexp} {error : LispError} (hp : i.env.isProvided feature = false)
    (hfile : i.Finds files feature file forms)
    (hforms : (evalForms i.handlers (origin file feature) i.env none forms).outcome = .error error) :
    Requiring i files feature (evalForms i.handlers (origin file feature) i.env none forms)
  | loaded {file : String} {forms : List Sexp} {value : Option Sexp} (hp : i.env.isProvided feature = false)
    (hfile : i.Finds files feature file forms)
    (hforms : (evalForms i.handlers (origin file feature) i.env none forms).outcome = .ok value) :
    Requiring i files feature
      (.skip ((evalForms i.handlers (origin file feature) i.env none forms).env.provide files feature file)
        ((evalForms i.handlers (origin file feature) i.env none forms).notices ++
          [.loaded feature file forms.length]))

theorem requiring (i : Interpreter) (files : FileTable) (feature : String) :
    Requiring i files feature (i.require files feature) := by
  rw [require]
  split
  · rename_i hp
    exact .provided hp
  rename_i hp
  rw [Bool.not_eq_true] at hp
  cases hfile : i.locate files feature with
  | none => exact .notFound hp hfile
  | some file =>
    cases htext : files.readText file with
    | error error =>
      simp only [loadIn, htext]
      exact .unreadable hp hfile htext
    | ok text =>
      cases hforms : Sexp.readForms text with
      | error error =>
        simp only [loadIn, htext, hforms]
        exact .unparsable hp hfile htext hforms
      | ok forms =>
        simp only [loadIn, htext, hforms]
        have hfinds : i.Finds files feature file forms := ⟨hfile, text, htext, hforms⟩
        split
        · rename_i error herror
          exact .stopped hp hfinds herror
        · rename_i value hok
          exact .loaded hp hfinds hok

/-! ### What is left behind -/

/-- A file on the load path has a modification time. -/
private theorem exists_modified {i : Interpreter} {files : FileTable} {feature file : String}
    (hp : i.env.isProvided feature = false) (hfile : i.locate files feature = some file) :
    ∃ time, files.modified? file = some time := by
  rw [locate, Environment.feature?_of_not_isProvided hp] at hfile
  have hisFile := List.find?_some hfile
  unfold FileTable.isFile at hisFile
  split at hisFile
  · rename_i content time hlookup
    exact ⟨time, by rw [FileTable.modified?, hlookup]; rfl⟩
  · cases hisFile

/-- After a feature has been loaded: it and nothing else is newly provided, with its file and the time at which this
was modified; the symbols are those which its forms leave; and definitions that changed are attributed to it. -/
structure Loaded (i : Interpreter) (files : FileTable) (feature file : String) (after : Environment) : Prop where
  absent : i.env.feature? feature = none
  located : i.locate files feature = some file
  features : ∃ time, files.modified? file = some time ∧
    after.features = i.env.features.insert feature { name := feature, file := file, loadTime := time }
  located_after : ({ i with env := after } : Interpreter).locate files feature = some file
  symbols : ∃ forms value, i.Finds files feature file forms ∧
    (evalForms i.handlers (origin file feature) i.env none forms).outcome = .ok value ∧
    after.symbols = (evalForms i.handlers (origin file feature) i.env none forms).env.symbols
  provenance : ∀ name scope, after.provenance? name scope ≠ i.env.provenance? name scope →
    after.provenance? name scope = some (origin file feature)

/-- What requiring a feature leaves behind, by its outcome. -/
structure AllOrNothing (i : Interpreter) (files : FileTable) (feature : String) (step : Step) : Prop where
  provided : i.env.isProvided feature = true → step.outcome = .ok none ∧ step.env = i.env
  notFound : ∀ {name}, step.outcome = .error (.libraryNotFound name) →
    step.env = i.env ∧ name = feature ∧ i.locate files feature = none
  unreadable : ∀ {path error}, step.outcome = .error (.file path error) →
    step.env = i.env ∧ i.locate files feature = some path ∧ files.readText path = .error error
  unparsable : ∀ {error}, step.outcome = .error (.read error) →
    step.env = i.env ∧ ∃ file text, i.locate files feature = some file ∧ files.readText file = .ok text ∧
      Sexp.readForms text = .error error
  stopped : ∀ {error}, step.outcome = .error error → error.beforeForms = false →
    step.env.features = i.env.features ∧ step.env.isProvided feature = false ∧
      ∃ file forms, i.Finds files feature file forms ∧
        Stops i.handlers (origin file feature) i.env none forms error step ∧
        Declaration.Stops (origin file feature) i.env (Sexp.callsAll forms) error step.env
  loaded : ∀ {value}, step.outcome = .ok value → i.env.isProvided feature = false →
    ∃ file, i.Loaded files feature file step.env

theorem loaded_provide {i : Interpreter} (hi : i.handlers = {}) {files : FileTable} {feature file : String}
    {forms : List Sexp} {value : Option Sexp} (hp : i.env.isProvided feature = false)
    (hfile : i.Finds files feature file forms)
    (hforms : (evalForms i.handlers (origin file feature) i.env none forms).outcome = .ok value) :
    i.Loaded files feature file
      ((evalForms i.handlers (origin file feature) i.env none forms).env.provide files feature file) where
  absent := Environment.feature?_of_not_isProvided hp
  located := hfile.1
  features := by
    obtain ⟨time, htime⟩ := exists_modified hp hfile.1
    refine ⟨time, htime, ?_⟩
    rw [hi, Environment.provide, Feature.stamp, htime, Declaration.features_evalForms]
    rfl
  located_after := by
    rw [locate, Environment.feature?, Environment.provide, Table.get?_insert, if_pos rfl]
    rfl
  symbols := ⟨forms, value, hfile, hforms, rfl⟩
  provenance := by
    intro name scope hchanged
    -- providing a feature changes no symbol
    change ((evalForms i.handlers (origin file feature) i.env none forms).env.provenance? name scope) ≠ _ at hchanged
    change (evalForms i.handlers (origin file feature) i.env none forms).env.provenance? name scope = _
    rw [hi, Declaration.env_evalForms_eq, Environment.provenance?_writeAll] at hchanged ⊢
    split at hchanged
    · rename_i hdefine
      rw [if_pos hdefine]
    · exact absurd rfl hchanged

theorem Requiring.allOrNothing {i : Interpreter} (hi : i.handlers = {}) {files : FileTable} {feature : String}
    {step : Step} (h : Requiring i files feature step) : i.AllOrNothing files feature step := by
  cases h with
  | provided hp =>
    refine ⟨fun _ => ⟨rfl, rfl⟩, nofun, nofun, nofun, nofun, fun _ hp' => ?_⟩
    simp [hp] at hp'
  | notFound hp hfile =>
    refine ⟨fun hp' => ?_, fun ho => ?_, nofun, nofun, fun ho hafter => ?_, nofun⟩
    · simp [hp] at hp'
    · cases ho
      exact ⟨rfl, rfl, hfile⟩
    · cases ho
      cases hafter
  | unreadable hp hfile htext =>
    refine ⟨fun hp' => ?_, nofun, fun ho => ?_, nofun, fun ho hafter => ?_, nofun⟩
    · simp [hp] at hp'
    · cases ho
      exact ⟨rfl, hfile, htext⟩
    · cases ho
      cases hafter
  | unparsable hp hfile htext hforms =>
    refine ⟨fun hp' => ?_, nofun, nofun, fun ho => ?_, fun ho hafter => ?_, nofun⟩
    · simp [hp] at hp'
    · cases ho
      exact ⟨rfl, _, _, hfile, htext, hforms⟩
    · cases ho
      cases hafter
  | @stopped file forms error hp hfile hforms =>
    rw [hi] at hforms ⊢
    have hlate : ∀ {e}, (evalForms {} (origin file feature) i.env none forms).outcome = .error e →
        e.beforeForms = false := fun ho => Declaration.beforeForms_of_evalForms ho
    refine ⟨fun hp' => ?_, fun ho => (nomatch hlate ho), fun ho => (nomatch hlate ho), fun ho => (nomatch hlate ho),
      fun ho _ => ?_, fun ho => ?_⟩
    · simp [hp] at hp'
    · refine ⟨Declaration.features_evalForms _ _ _ _, ?_, file, forms, hfile, ?_, Declaration.stops_of_evalForms ho⟩
      · rw [Environment.isProvided, Declaration.features_evalForms]
        exact hp
      · rw [hi]
        exact stops_of_outcome ho
    · rw [hforms] at ho
      cases ho
  | loaded hp hfile hforms =>
    refine ⟨fun hp' => ?_, nofun, nofun, nofun, nofun, fun _ _ => ⟨_, loaded_provide hi hp hfile hforms⟩⟩
    simp [hp] at hp'

/-- Under the default handlers, requiring a feature is all or nothing as far as it can be, in whatever environment and
on whatever files. -/
theorem allOrNothing_require (env : Environment) (loadPath : List String) (suffix : String) (files : FileTable)
    (feature : String) :
    let i : Interpreter := { env := env, loadPath := loadPath, suffix := suffix }
    i.AllOrNothing files feature (i.require files feature) := by
  intro i
  exact (requiring i files feature).allOrNothing rfl

end Interpreter

end LispDoc
