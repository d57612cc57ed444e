import LispDoc.CommandLine
import LispDoc.Proofs.Evaluation.Answer
import LispDoc.Proofs.Evaluation.Session
import LispDoc.Proofs.Sexp.Equality

/-!
# The order in which features are required

Features that are required one after the other, going on after failures, end up provided if they were provided at the
start or if they are in the list and can be loaded (`Interpreter.Loadable`). Whether a feature can be loaded is told by
its file: its forms go through in the environment that other features left if and only if they go through from nothing.
So neither the order of the list nor its repetitions matter, and a feature that fails does so with the same error
wherever it stands (`Interpreter.isProvided_requireAll_iff`).

One call provides at most the feature it is about (`Interpreter.isProvided_require`). For a run, what is kept is that
the features which are not provided yet are looked for in the same places (`Interpreter.loadable_of_absent`).
-/

namespace LispDoc

namespace Interpreter

/-- The file of a feature is found and reads, and all of its forms go through if nothing has been defined before. -/
def Loadable (i : Interpreter) (files : FileTable) (feature : String) : Prop :=
  ∃ file forms value, i.Finds files feature file forms ∧
    (evalForms i.handlers (origin file feature) .empty none forms).outcome = .ok value

theorem Finds.unique {i : Interpreter} {files : FileTable} {feature file file' : String} {forms forms' : List Sexp}
    (h : i.Finds files feature file forms) (h' : i.Finds files feature file' forms') :
    file = file' ∧ forms = forms' := by
  obtain ⟨hfile, text, htext, hforms⟩ := h
  obtain ⟨hfile', text', htext', hforms'⟩ := h'
  obtain rfl : file = file' := Option.some.inj (hfile.symm.trans hfile')
  obtain rfl : text = text' := Except.ok.inj (htext.symm.trans htext')
  exact ⟨rfl, Except.ok.inj (hforms.symm.trans hforms')⟩

/-! ### One feature -/

section

variable {i : Interpreter} (hi : i.handlers = {}) (files : FileTable) (feature : String)

include hi

/-- Requiring a feature goes well if it is provided or can be loaded, and provides no other feature. -/
theorem isProvided_require (f : String) :
    (i.require files feature).env.isProvided f = true ↔
      i.env.isProvided f = true ∨ f = feature ∧ i.Loadable files feature := by
  have hrequire := requiring i files feature
  generalize i.require files feature = step at hrequire ⊢
  cases hrequire with
  | provided hp =>
    constructor
    · exact .inl
    · rintro (h | ⟨rfl, -⟩)
      · exact h
      · exact hp
  | notFound hp hfile =>
    have hnot : ¬ i.Loadable files feature := by
      rintro ⟨file, forms, value, ⟨hfile', -⟩, -⟩
      rw [hfile] at hfile'
      cases hfile'
    simp [Step.fail, hnot]
  | @unreadable file error hp hfile htext =>
    have hnot : ¬ i.Loadable files feature := by
      rintro ⟨file', forms, value, ⟨hfile', text, htext', -⟩, -⟩
      obtain rfl := Option.some.inj (hfile.symm.trans hfile')
      rw [htext] at htext'
      cases htext'
    simp [Step.fail, hnot]
  | @unparsable file text error hp hfile htext hforms =>
    have hnot : ¬ i.Loadable files feature := by
      rintro ⟨file', forms, value, ⟨hfile', text', htext', hforms'⟩, -⟩
      obtain rfl := Option.some.inj (hfile.symm.trans hfile')
      obtain rfl := Except.ok.inj (htext.symm.trans htext')
      rw [hforms] at hforms'
      cases hforms'
    simp [Step.fail, hnot]
  | @stopped file forms error hp hfinds hforms =>
    -- the forms stop with the same error if nothing has been defined before
    have hnot : ¬ i.Loadable files feature := by
      rintro ⟨file', forms', value, hfinds', hok⟩
      obtain ⟨rfl, rfl⟩ := hfinds.unique hfinds'
      rw [hi] at hforms hok
      rw [outcome_evalForms _ (origin file feature) _ .empty, hok] at hforms
      cases hforms
    rw [hi, Environment.isProvided, Declaration.features_evalForms]
    simp only [hnot, and_false, or_false]
    rfl
  | @loaded file forms value hp hfinds hforms =>
    have hloadable : i.Loadable files feature := by
      refine ⟨file, forms, value, hfinds, ?_⟩
      rw [hi] at hforms ⊢
      rw [outcome_evalForms _ (origin file feature) _ i.env]
      exact hforms
    rw [hi, Step.skip, Environment.isProvided, Environment.provide, Table.contains, Table.get?_insert,
      Declaration.features_evalForms]
    by_cases hf : feature = f
    · subst hf
      simp [hloadable]
    · simp only [if_neg hf, Ne.symm hf, false_and, or_false]
      rfl

/-- A feature that is provided afterwards was required without an error. -/
private theorem outcome_require_of_isProvided (h : (i.require files feature).env.isProvided feature = true) :
    (i.require files feature).outcome = .ok none := by
  have hrequire := requiring i files feature
  generalize i.require files feature = step at hrequire h ⊢
  cases hrequire with
  | provided hp => rfl
  | loaded hp hfinds hforms => rfl
  | notFound hp hfile =>
    rw [Step.fail, hp] at h
    cases h
  | unreadable hp hfile htext =>
    rw [Step.fail, hp] at h
    cases h
  | unparsable hp hfile htext hforms =>
    rw [Step.fail, hp] at h
    cases h
  | stopped hp hfinds hforms =>
    rw [hi, Environment.isProvided, Declaration.features_evalForms] at h
    rw [Environment.isProvided] at hp
    rw [hp] at h
    cases h

end

/-! ### The same interpreter with another environment -/

section

variable {i : Interpreter} {files : FileTable} {feature : String} {env : Environment}

private theorem locate_of_absent (h : i.env.isProvided feature = false) (henv : env.isProvided feature = false) :
    ({ i with env := env } : Interpreter).locate files feature = i.locate files feature := by
  rw [locate, locate, Environment.feature?_of_not_isProvided h, Environment.feature?_of_not_isProvided henv]

theorem loadable_of_absent (h : i.env.isProvided feature = false) (henv : env.isProvided feature = false) :
    ({ i with env := env } : Interpreter).Loadable files feature ↔ i.Loadable files feature := by
  unfold Loadable Finds
  rw [locate_of_absent h henv]

private theorem outcome_loadIn (hi : i.handlers = {}) (files : FileTable) (env : Environment) (file : String)
    (context : Provenance) :
    (({ i with env := env } : Interpreter).loadIn files file context).1.outcome =
      (i.loadIn files file context).1.outcome := by
  unfold loadIn
  cases files.readText file with
  | error error => rfl
  | ok text =>
    dsimp only
    cases Sexp.readForms text with
    | error error => rfl
    | ok forms =>
      rw [hi]
      exact outcome_evalForms context context env i.env none forms

private theorem outcome_require_of_absent (hi : i.handlers = {}) (h : i.env.isProvided feature = false)
    (henv : env.isProvided feature = false) :
    (({ i with env := env } : Interpreter).require files feature).outcome = (i.require files feature).outcome := by
  rw [require, require, locate_of_absent h henv, h]
  simp only [henv, Bool.false_eq_true, if_false]
  cases i.locate files feature with
  | none => rfl
  | some file =>
    have hload := outcome_loadIn hi files env file (origin file feature)
    rw [origin] at hload
    dsimp only
    rw [hload]
    split
    · exact hload
    · rfl

end

/-! ### Runs -/

open CommandLine (requireAll)

private theorem isProvided_requireAll {i : Interpreter} (hi : i.handlers = {}) (files : FileTable)
    (features : List String) (f : String) :
    (requireAll files i features).1.isProvided f = true ↔
      i.env.isProvided f = true ∨ f ∈ features ∧ i.Loadable files f := by
  induction features generalizing i with
  | nil => simp [requireAll]
  | cons feature features ih =>
    have hstep := isProvided_require hi files feature f
    rw [requireAll, ih (i := { i with env := (i.require files feature).env }) hi, hstep]
    cases hprovided : (i.require files feature).env.isProvided f with
    | true =>
      -- provided by now, so what the others do is of no account
      rw [hprovided] at hstep
      have hnow := hstep.1 rfl
      constructor
      · intro _
        rcases hnow with h | ⟨rfl, h⟩
        · exact .inl h
        · exact .inr ⟨by simp, h⟩
      · intro _
        exact .inl hnow
    | false =>
      rw [hprovided] at hstep
      have hnot : ¬ (i.env.isProvided f = true ∨ f = feature ∧ i.Loadable files feature) := fun h => nomatch hstep.2 h
      rw [not_or] at hnot
      have habsent : i.env.isProvided f = false := by simpa using hnot.1
      rw [loadable_of_absent habsent hprovided, List.mem_cons]
      constructor
      · rintro ((h | h) | ⟨hmem, h⟩)
        · exact .inl h
        · exact absurd h hnot.2
        · exact .inr ⟨.inr hmem, h⟩
      · rintro (h | ⟨rfl | hmem, h⟩)
        · exact .inl (.inl h)
        · exact absurd ⟨rfl, h⟩ hnot.2
        · exact .inr ⟨hmem, h⟩

/-- Whatever has been required before, requiring a feature gives the same value or the same error. -/
private theorem outcome_require_requireAll {i : Interpreter} (hi : i.handlers = {}) (files : FileTable)
    (before : List String) (feature : String) :
    (({ i with env := (requireAll files i before).1 } : Interpreter).require files feature).outcome =
      (i.require files feature).outcome := by
  have hprovided := isProvided_requireAll hi files before feature
  cases hafter : (requireAll files i before).1.isProvided feature with
  | true =>
    rw [hafter] at hprovided
    have hi' : ({ i with env := (requireAll files i before).1 } : Interpreter).handlers = {} := hi
    have hagain := (isProvided_require hi' files feature feature).2 (.inl hafter)
    rw [outcome_require_of_isProvided hi' files feature hagain, outcome_require_of_isProvided hi files feature]
    rw [isProvided_require hi]
    rcases hprovided.1 rfl with h | ⟨-, h⟩
    · exact .inl h
    · exact .inr ⟨rfl, h⟩
  | false =>
    have habsent : i.env.isProvided feature = false := by
      cases h : i.env.isProvided feature with
      | false => rfl
      | true =>
        rw [hafter] at hprovided
        exact nomatch hprovided.2 (.inl h)
    exact outcome_require_of_absent hi habsent hafter

/-- Requiring features in order and going on after failures provides, besides what was provided, the features of the
list that can be loaded. Lists of the same features provide the same, and a feature that is required, at whatever point
of whatever list, gives the value or the error that it gives at the start. -/
theorem isProvided_requireAll_iff (env : Environment) (loadPath : List String) (suffix : String) (files : FileTable)
    (features : List String) :
    let i : Interpreter := { env := env, loadPath := loadPath, suffix := suffix }
    (∀ f, (requireAll files i features).1.isProvided f = true ↔
      env.isProvided f = true ∨ f ∈ features ∧ i.Loadable files f) ∧
    (∀ others, (∀ f, f ∈ others ↔ f ∈ features) → ∀ f,
      (requireAll files i others).1.isProvided f = (requireAll files i features).1.isProvided f) ∧
    ∀ before f, (({ i with env := (requireAll files i before).1 } : Interpreter).require files f).outcome =
      (i.require files f).outcome := by
  intro i
  have hprovided := isProvided_requireAll (i := i) rfl files
  refine ⟨hprovided features, fun others hothers f => ?_, outcome_require_requireAll rfl files⟩
  rw [Bool.eq_iff_iff, hprovided, hprovided, hothers]

/-- Two features, one of which fails after a definition. -/
def shelf : FileTable where
  nodes := .ofList [("lamp.el", .file "(defun lamp (room))".toUTF8 .epoch),
    ("torn.el", .file "(defvar page 1) (defun)".toUTF8 .epoch)]
  clock := .epoch

def lampForms : List Sexp := [.list [.symbol "defun", .symbol "lamp", .list [.symbol "room"]]]

def tornForms : List Sexp := [.list [.symbol "defvar", .symbol "page", .integer 1], .list [.symbol "defun"]]

attribute [local instance] Sexp.decEq

theorem isProvided_requireAll_shelf :
    let i : Interpreter := { env := .empty, loadPath := ["."], suffix := "el" }
    (∀ f, f ∈ ["lamp", "torn"] ↔ f ∈ ["torn", "lamp", "torn"]) ∧
    (requireAll shelf i ["torn", "lamp", "torn"]).1.isProvided "lamp" = true ∧
    (requireAll shelf i ["torn", "lamp", "torn"]).1.isProvided "torn" = false ∧
    ∀ f, (requireAll shelf i ["lamp", "torn"]).1.isProvided f =
      (requireAll shelf i ["torn", "lamp", "torn"]).1.isProvided f := by
  intro i
  have hsame : ∀ f, f ∈ ["lamp", "torn"] ↔ f ∈ ["torn", "lamp", "torn"] := by
    intro f
    grind
  have hlamp : i.Finds shelf "lamp" "./lamp.el" lampForms :=
    ⟨by decide +kernel, "(defun lamp (room))", by decide +kernel, by decide +kernel⟩
  have htorn : i.Finds shelf "torn" "./torn.el" tornForms :=
    ⟨by decide +kernel, "(defvar page 1) (defun)", by decide +kernel, by decide +kernel⟩
  have hloadable : i.Loadable shelf "lamp" := by
    have hs : ∀ form ∈ lampForms, form.sanitize = form := Sexp.sanitize_of_mem rfl
    have hnone : (evalForms {} (origin "./lamp.el" "lamp") .empty none lampForms).ending.2 = none := by
      rw [Declaration.ending_evalForms _ _ none hs]
      decide
    obtain ⟨value, hok⟩ := Step.exists_ok_of_ending hnone
    exact ⟨_, _, value, hlamp, hok⟩
  have hnot : ¬ i.Loadable shelf "torn" := by
    rintro ⟨file, forms, value, hfinds, hok⟩
    obtain ⟨rfl, rfl⟩ := htorn.unique hfinds
    have hs : ∀ form ∈ tornForms, form.sanitize = form := Sexp.sanitize_of_mem rfl
    have herror : (Declaration.performAll (origin "./torn.el" "torn") .empty (Sexp.spliceAll tornForms)).2 ≠ none := by
      decide
    rw [← Declaration.ending_evalForms _ _ none hs, Step.ending, hok] at herror
    exact herror rfl
  obtain ⟨hprovided, hothers, -⟩ := isProvided_requireAll_iff .empty ["."] "el" shelf ["torn", "lamp", "torn"]
  refine ⟨hsame, (hprovided "lamp").2 (.inr ⟨by simp, hloadable⟩), ?_, hothers _ hsame⟩
  rw [← Bool.not_eq_true, hprovided]
  rintro (h | ⟨-, h⟩)
  · cases h
  · exact hnot h

end Interpreter

end LispDoc
