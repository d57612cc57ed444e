import LispDoc.Proofs.Evaluation.Require

/-!
# What holds of every environment

However an interpreter is used, its environment stays well formed (`Environment.WellFormed`): symbols and features are
kept under their own names, the names of symbols are valid, and what is defined in a scope has the property that
definitions in this scope always have. Nothing is ever forgotten (`Environment.Extends`).

Whatever a call does, whether or not it fails, it makes sound changes and provides at most one feature
(`Interpreter.Call.env_cases`). Both facts follow from what such changes do.
-/

namespace LispDoc

namespace Environment

/-- What holds of an environment that has been built from nothing. -/
structure WellFormed (env : Environment) : Prop where
  symbol_name : ∀ {key s}, env.lookup key = some s → s.name = key ∧ isSymbolName key = true
  feature_name : ∀ {key f}, env.feature? key = some f → f.name = key
  required : ∀ {key s scope}, env.lookup key = some s → s.inScope scope = true →
    ∀ property ∈ scope.required?, (s.property? property).isSome = true

/-- What the first environment has, the second has too. -/
structure Extends (before after : Environment) : Prop where
  symbol : ∀ {name}, (before.lookup name).isSome = true → (after.lookup name).isSome = true
  scope : ∀ {name scope}, (before.provenance? name scope).isSome = true → (after.provenance? name scope).isSome = true
  property : ∀ {name property}, (before.property? name property).isSome = true →
    (after.property? name property).isSome = true
  feature : ∀ {name}, (before.feature? name).isSome = true → (after.feature? name).isSome = true

theorem wellFormed_empty : WellFormed empty where
  symbol_name := by
    intro key s h
    cases h
  feature_name := by
    intro key f h
    cases h
  required := by
    intro key s scope h
    cases h

theorem Extends.refl (env : Environment) : Extends env env := ⟨id, id, id, id⟩

theorem Extends.trans {a b c : Environment} (hab : Extends a b) (hbc : Extends b c) : Extends a c :=
  ⟨fun h => hbc.symbol (hab.symbol h), fun h => hbc.scope (hab.scope h), fun h => hbc.property (hab.property h),
    fun h => hbc.feature (hab.feature h)⟩

/-! ### Changes -/

variable (context : Provenance)

theorem symbolOf_of_lookup {env : Environment} {name : String} {s : Symbol} (h : env.lookup name = some s) :
    env.symbolOf name = s := by
  rw [symbolOf, h]
  rfl

theorem WellFormed.name_symbolOf {env : Environment} (h : env.WellFormed) (name : String) :
    (env.symbolOf name).name = name := by
  cases hs : env.lookup name with
  | none => rw [symbolOf, hs]; rfl
  | some s => rw [symbolOf_of_lookup hs]; exact (h.symbol_name hs).1

private theorem isSome_last? {env : Environment} {name property : String} {value : PropertyValue} {ws : List Write}
    (h : .set name property value ∈ ws) : (Write.last? env name property ws).isSome = true := by
  rw [Write.last?, List.findSome?_isSome_iff]
  exact ⟨_, List.mem_reverse.2 h, by simp [Write.value?]⟩

private theorem extends_writeAll (env : Environment) (ws : List Write) : Extends env (env.writeAll context ws) where
  symbol := by
    intro name h
    exact (isSome_lookup_writeAll context env ws name).2 (.inr h)
  scope := by
    intro name scope h
    rw [provenance?_writeAll]
    split
    · rfl
    · exact h
  property := by
    intro name property h
    rw [property?_writeAll, Option.isSome_or, h, Bool.or_true]
  feature := by
    intro name h
    rwa [feature?, features_writeAll]

theorem WellFormed.writeAll {env : Environment} (h : env.WellFormed) {ws : List Write} (hws : Write.Sound ws) :
    (env.writeAll context ws).WellFormed where
  symbol_name := by
    intro key s hs
    constructor
    · rw [← symbolOf_of_lookup hs, name_symbolOf_writeAll, h.name_symbolOf]
    · rcases (isSome_lookup_writeAll context env ws key).1 (by rw [hs]; rfl) with ⟨w, hw, rfl⟩ | hkey
      · exact hws.valid w hw
      · obtain ⟨t, ht⟩ := Option.isSome_iff_exists.1 hkey
        exact (h.symbol_name ht).2
  feature_name := by
    intro key f hf
    rw [feature?, features_writeAll] at hf
    exact h.feature_name hf
  required := by
    intro key s scope hs hscope property hp
    have hprovenance : ((env.writeAll context ws).provenance? key scope).isSome = true := by
      rw [provenance?, hs]
      exact hscope
    have hproperty : s.property? property = (env.writeAll context ws).property? key property := by
      rw [property?, hs]
      rfl
    rw [hproperty, property?_writeAll, Option.isSome_or, Bool.or_eq_true]
    rw [provenance?_writeAll] at hprovenance
    split at hprovenance
    · -- the definition is new, and so is the property that comes with it
      rename_i hdefine
      obtain ⟨value, hvalue⟩ := hws.required hdefine property hp
      exact .inl (isSome_last? hvalue)
    · right
      obtain ⟨p, hprov⟩ := Option.isSome_iff_exists.1 hprovenance
      obtain ⟨t, ht, htp⟩ := Option.bind_eq_some_iff.1 hprov
      rw [property?, ht]
      exact h.required ht (by rw [Symbol.inScope]; exact Option.isSome_iff_exists.2 ⟨p, htp⟩) property hp

private theorem extends_provide (env : Environment) (files : FileTable) (name file : String) :
    Extends env (env.provide files name file) where
  symbol := id
  scope := id
  property := id
  feature := by
    intro n h
    rw [feature?, provide, Table.get?_insert]
    split
    · rfl
    · exact h

theorem WellFormed.provide {env : Environment} (h : env.WellFormed) (files : FileTable) (name file : String) :
    (env.provide files name file).WellFormed where
  symbol_name := h.symbol_name
  feature_name := by
    intro key f hf
    rw [feature?, Environment.provide, Table.get?_insert] at hf
    split at hf
    · rename_i hkey
      obtain rfl := Option.some.inj hf
      exact hkey
    · exact h.feature_name hf
  required := h.required

end Environment

namespace Interpreter

/-! ### Calls -/

/-- What can be asked of an interpreter. The files are those there are at the time of the call. -/
inductive Call where
  | intern (name : String)
  | eval (context : Provenance) (form : Sexp)
  | evalAll (context : Provenance) (forms : List Sexp)
  | load (files : FileTable) (file : String)
  | require (files : FileTable) (feature : String)

/-- The environment after a call, whether or not the call fails. -/
def Call.env (i : Interpreter) : Call → Environment
  | intern name =>
    match i.env.intern name with
    | .ok env => env
    | .error _ => i.env
  | eval context form => (evalForm i.handlers context i.env form).env
  | evalAll context forms => (evalForms i.handlers context i.env none forms).env
  | load files file => (i.load files file).env
  | require files feature => (i.require files feature).env

/-- The interpreter after calls, one after the other. -/
def run (i : Interpreter) (calls : List Call) : Interpreter :=
  calls.foldl (fun i call => { i with env := call.env i }) i

private theorem env_intern (i : Interpreter) (name : String) :
    ∃ ws, Write.Sound ws ∧ Call.env i (.intern name) = i.env.writeAll {} ws := by
  rw [Call.env, Environment.intern, Environment.update_eq]
  by_cases h : isSymbolName name = true
  · rw [if_pos h]
    refine ⟨[.intern name], ⟨?_, by simp, by simp, by simp⟩, rfl⟩
    intro w hw
    obtain rfl := List.mem_singleton.1 hw
    exact h
  · rw [if_neg h]
    exact ⟨[], .nil, rfl⟩

private theorem env_load {i : Interpreter} (hi : i.handlers = {}) (files : FileTable) (file : String) :
    ∃ ws, Write.Sound ws ∧ (i.load files file).env = i.env.writeAll { file := some file } ws := by
  unfold load loadIn
  split
  · exact ⟨[], .nil, rfl⟩
  · split
    · exact ⟨[], .nil, rfl⟩
    · rw [hi]
      exact ⟨_, Declaration.sound_effectsAll _, Declaration.env_evalForms_eq _ i.env none _⟩

/-- A call makes sound changes, and may provide a feature after them. -/
theorem Call.env_cases {i : Interpreter} (hi : i.handlers = {}) (call : Call) :
    ∃ context ws, Write.Sound ws ∧ (call.env i = i.env.writeAll context ws ∨
      ∃ files feature file, call.env i = (i.env.writeAll context ws).provide files feature file) := by
  cases call with
  | intern name =>
    obtain ⟨ws, hws, henv⟩ := env_intern i name
    exact ⟨{}, ws, hws, .inl henv⟩
  | eval context form =>
    refine ⟨context, _, Declaration.sound_effectsAll form.calls, .inl ?_⟩
    rw [Call.env, hi]
    exact Declaration.env_evalForm_eq context i.env form
  | evalAll context forms =>
    refine ⟨context, _, Declaration.sound_effectsAll (Sexp.callsAll forms), .inl ?_⟩
    rw [Call.env, hi]
    exact Declaration.env_evalForms_eq context i.env none forms
  | load files file =>
    obtain ⟨ws, hws, henv⟩ := env_load hi files file
    exact ⟨_, ws, hws, .inl henv⟩
  | require files feature =>
    rw [Call.env]
    have hrequire := requiring i files feature
    generalize i.require files feature = step at hrequire ⊢
    cases hrequire with
    | @stopped file forms error hp hfile hforms =>
      refine ⟨origin file feature, _, Declaration.sound_effectsAll (Sexp.callsAll forms), .inl ?_⟩
      rw [hi, Declaration.env_evalForms_eq]
    | @loaded file forms value hp hfile hforms =>
      refine ⟨origin file feature, _, Declaration.sound_effectsAll (Sexp.callsAll forms),
        .inr ⟨files, feature, file, ?_⟩⟩
      rw [hi, Declaration.env_evalForms_eq]
      rfl
    | _ => exact ⟨{}, [], .nil, .inl rfl⟩

private theorem wellFormed_env {i : Interpreter} (hi : i.handlers = {}) (h : i.env.WellFormed) (call : Call) :
    (call.env i).WellFormed := by
  obtain ⟨context, ws, hws, henv | ⟨files, feature, file, henv⟩⟩ := call.env_cases hi
  · rw [henv]
    exact h.writeAll context hws
  · rw [henv]
    exact (h.writeAll context hws).provide files feature file

private theorem extends_env {i : Interpreter} (hi : i.handlers = {}) (call : Call) : i.env.Extends (call.env i) := by
  obtain ⟨context, ws, -, henv | ⟨files, feature, file, henv⟩⟩ := call.env_cases hi
  · rw [henv]
    exact Environment.extends_writeAll context i.env ws
  · rw [henv]
    exact (Environment.extends_writeAll context i.env ws).trans (Environment.extends_provide _ files feature file)

/-! ### Runs -/

private theorem handlers_run (i : Interpreter) (calls : List Call) : (i.run calls).handlers = i.handlers := by
  induction calls generalizing i with
  | nil => rfl
  | cons call calls ih => exact ih _

private theorem wellFormed_env_run {i : Interpreter} (hi : i.handlers = {}) (h : i.env.WellFormed) (calls : List Call) :
    (i.run calls).env.WellFormed := by
  induction calls generalizing i with
  | nil => exact h
  | cons call calls ih => exact ih hi (wellFormed_env hi h call)

/-- After any calls, starting with nothing defined, the environment is well formed; and whatever is called next, no
symbol, scope, property or feature is lost. -/
theorem wellFormed_run (loadPath : List String) (suffix : String) (calls : List Call) :
    let i := run { env := .empty, loadPath := loadPath, suffix := suffix } calls
    i.env.WellFormed ∧ ∀ call : Call, i.env.Extends (call.env i) := by
  intro i
  exact ⟨wellFormed_env_run rfl Environment.wellFormed_empty calls, extends_env (handlers_run _ calls)⟩

end Interpreter

end LispDoc
