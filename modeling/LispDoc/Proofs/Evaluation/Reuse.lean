import LispDoc.Proofs.Evaluation.Require
import LispDoc.Proofs.Sexp.Equality
import LispDoc.Proofs.Table

/-!
# Starting from a previous environment

An environment that features were loaded into remembers, for each of them, when its file had been modified by then
(`Environment.Stamped`). As long as no file was set back since, a file that is still there was modified at that time or
later, and so its feature is outdated. An interpreter therefore starts from such an environment only if all of the files
are gone, and with nothing otherwise (`Interpreter.start_of_required`).
-/

namespace LispDoc

theorem FileTable.isSome_modified? (t : FileTable) (path : String) : (t.modified? path).isSome = t.leads path := by
  rw [modified?, leads, Option.isSome_map]
  cases t.lookup path <;> rfl

namespace Environment

/-- The file of every feature has the modification time that the feature was stamped with. -/
def Stamped (files : FileTable) (env : Environment) : Prop :=
  ∀ f ∈ env.features.values, files.modified? f.file = some f.loadTime

/-- The files of features that are still there have not been set back. -/
def KeepsTime (files later : FileTable) (env : Environment) : Prop :=
  ∀ f ∈ env.features.values, ∀ before ∈ files.modified? f.file, ∀ now ∈ later.modified? f.file, before.le now = true

private theorem stamped_empty (files : FileTable) : Stamped files .empty := by
  intro f hf
  cases hf

theorem Stamped.of_features {files : FileTable} {a b : Environment} (h : Stamped files a)
    (hf : b.features = a.features) : Stamped files b := by
  intro f hmem
  rw [hf] at hmem
  exact h f hmem

/-- A feature that has been stamped is outdated once its file is there. -/
private theorem isOutdated_iff {files later : FileTable} {env : Environment} (h : env.Stamped files)
    (hlater : env.KeepsTime files later) :
    env.isOutdated later = true ↔ ∃ f ∈ env.features.values, later.leads f.file = true := by
  rw [isOutdated, List.any_eq_true]
  refine exists_congr fun f => and_congr_right fun hf => ?_
  rw [← FileTable.isSome_modified?, Feature.isOutdated]
  cases hnow : later.modified? f.file with
  | none => simp
  | some now => simp [hlater f hf _ (h f hf) now hnow]

end Environment

namespace Interpreter

/-- The environments that come of requiring features one after the other, each on some load path and whether or not it
can be loaded, starting with nothing. -/
inductive Required (files : FileTable) : Environment → Prop where
  | empty : Required files .empty
  | require {env : Environment} (h : Required files env) (loadPath : List String) (suffix feature : String) :
    Required files (({ env := env, loadPath := loadPath, suffix := suffix } : Interpreter).require files feature).env

/-- A feature is stamped as it is provided, and nothing else is. -/
private theorem stamped_require {i : Interpreter} (hi : i.handlers = {}) {files : FileTable} (h : i.env.Stamped files)
    (feature : String) : (i.require files feature).env.Stamped files := by
  have hrequire := requiring i files feature
  generalize i.require files feature = step at hrequire ⊢
  cases hrequire with
  | provided hp => exact h
  | notFound hp hfile => exact h
  | unreadable hp hfile htext => exact h
  | unparsable hp hfile htext hforms => exact h
  | stopped hp hfile hforms =>
    rw [hi]
    exact h.of_features (Declaration.features_evalForms _ _ _ _)
  | loaded hp hfile hforms =>
    obtain ⟨time, htime, hfeatures⟩ := (loaded_provide hi hp hfile hforms).features
    intro f hf
    rw [Step.skip, hfeatures, Table.mem_values_iff] at hf
    obtain ⟨key, hkey⟩ := hf
    rw [Table.get?_insert] at hkey
    split at hkey
    · obtain rfl := Option.some.inj hkey
      exact htime
    · exact h f (Table.mem_values_iff.2 ⟨key, hkey⟩)

theorem Required.stamped {files : FileTable} {env : Environment} (h : Required files env) : env.Stamped files := by
  induction h with
  | empty => exact Environment.stamped_empty files
  | require _ loadPath suffix feature ih => exact stamped_require rfl ih feature

/-- An environment built by requiring features is started from again if and only if none of their files is there any
more. Otherwise nothing is left of it. Only an interpreter without a load path does not start at all. -/
theorem start_of_required {files later : FileTable} {env : Environment} (henv : Required files env)
    (hlater : env.KeepsTime files later) (loadPath : List String) :
    ∃ first notices,
      start later loadPath (some env) =
          (if loadPath = [] then .error .emptyLoadPath
          else .ok ({ env := first, loadPath := loadPath }, notices)) ∧
        (first = env ↔ ∀ f ∈ env.features.values, later.leads f.file = false) ∧
        ((∃ f ∈ env.features.values, later.leads f.file = true) → first = .empty) := by
  have houtdated := Environment.isOutdated_iff henv.stamped hlater
  refine ⟨(initial later (some env)).1, (initial later (some env)).2, ?_, ?_, ?_⟩
  · simp only [start, List.isEmpty_iff]
  · rw [initial]
    split
    · rename_i h
      obtain ⟨f, hf, hleads⟩ := houtdated.1 h
      constructor
      · -- the environment has a feature, and so is not the empty one
        rintro rfl
        cases hf
      · intro hgone
        rw [hgone f hf] at hleads
        cases hleads
    · rename_i h
      refine ⟨fun _ f hf => ?_, fun _ => rfl⟩
      rw [← Bool.not_eq_true]
      exact fun hleads => h (houtdated.2 ⟨f, hf, hleads⟩)
  · intro hthere
    rw [initial, if_pos (houtdated.2 hthere)]

/-- A feature whose forms go through is provided after what they recorded. -/
private theorem env_require_of_finds {i : Interpreter} {files : FileTable} {feature file : String} {forms : List Sexp}
    {value : Option Sexp} (hp : i.env.isProvided feature = false) (hfile : i.Finds files feature file forms)
    (hforms : (evalForms i.handlers (origin file feature) i.env none forms).outcome = .ok value) :
    (i.require files feature).env =
      (evalForms i.handlers (origin file feature) i.env none forms).env.provide files feature file := by
  obtain ⟨hlocate, text, htext, hread⟩ := hfile
  rw [origin] at hforms ⊢
  simp only [require, hp, Bool.false_eq_true, if_false, hlocate, loadIn, htext, hread, hforms]
  rfl

/-- A single library. -/
def desk : FileTable where
  nodes := .ofList [("pen.el", .file "(defvar ink 1)".toUTF8 .epoch)]
  clock := .epoch

attribute [local instance] Sexp.decEq

/-- After the library of the desk has been required, the desk as it was makes the environment outdated, and an empty
desk does not. -/
theorem start_of_required_desk :
    let env := (({ env := .empty, loadPath := ["."] } : Interpreter).require desk "pen").env
    env.features.values = [⟨"pen", "./pen.el", .epoch⟩] ∧
      (∃ notices, start desk ["."] (some env) = .ok ({ env := .empty, loadPath := ["."] }, notices)) ∧
      ∃ notices, start (.empty .epoch) ["."] (some env) = .ok ({ env := env, loadPath := ["."] }, notices) := by
  intro env
  have hvalues : env.features.values = [⟨"pen", "./pen.el", .epoch⟩] := by
    have hfinds : ({ env := .empty, loadPath := ["."] } : Interpreter).Finds desk "pen" "./pen.el"
        [.list [.symbol "defvar", .symbol "ink", .integer 1]] :=
      ⟨by decide +kernel, "(defvar ink 1)", by decide +kernel, by decide +kernel⟩
    have hnone : (evalForms {} (origin "./pen.el" "pen") .empty none
        [.list [.symbol "defvar", .symbol "ink", .integer 1]]).ending.2 = none := by
      rw [Declaration.ending_evalForms _ _ none (Sexp.sanitize_of_mem rfl)]
      decide
    obtain ⟨value, hforms⟩ := Step.exists_ok_of_ending hnone
    have henv : env = _ := env_require_of_finds rfl hfinds hforms
    rw [henv, Environment.provide, Declaration.features_evalForms]
    decide +kernel
  have henv : Required desk env := .require .empty ["."] "el" "pen"
  have hdesk : env.KeepsTime desk desk := by
    intro f hf before hbefore now hnow
    obtain rfl : before = now := Option.mem_unique hbefore hnow
    have hepoch : desk.modified? "./pen.el" = some .epoch := by decide +kernel
    rw [hvalues, List.mem_singleton] at hf
    rw [hf, hepoch] at hnow
    obtain rfl := Option.some.inj hnow
    decide
  have hempty : env.KeepsTime desk (.empty .epoch) := by
    intro f hf before hbefore now hnow
    rw [hvalues, List.mem_singleton] at hf
    have hgone : (FileTable.empty .epoch).modified? "./pen.el" = none := by decide +kernel
    rw [hf, hgone] at hnow
    cases hnow
  refine ⟨hvalues, ?_, ?_⟩
  · obtain ⟨first, notices, hstart, -, hthere⟩ := start_of_required henv hdesk ["."]
    obtain rfl := hthere ⟨_, by rw [hvalues]; exact List.mem_singleton.2 rfl, by decide +kernel⟩
    exact ⟨notices, hstart⟩
  · obtain ⟨first, notices, hstart, hgone, -⟩ := start_of_required henv hempty ["."]
    obtain rfl := hgone.2 (by rw [hvalues, List.forall_mem_singleton]; decide +kernel)
    exact ⟨notices, hstart⟩

end Interpreter

end LispDoc
