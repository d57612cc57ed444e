import LispDoc.Proofs.Evaluation.Replay

/-!
# Forms in two contexts

The context in which forms are handled, a file and a feature, goes into provenances and nowhere else. Two runs of the
same forms from the same environment answer the same, and what they leave behind is the same symbol table up to the
provenances of what the forms define (`twins_evalForms`).

A file that is loaded by itself and one that is loaded for a feature are handled in such a pair of contexts, so both
record the same definitions (`Interpreter.twins_load_require`).
-/

namespace LispDoc

/-- The symbol without its definitions. -/
def Symbol.undefined (s : Symbol) : Symbol := { s with scopes := {} }

namespace Environment

/-- What two environments that were reached from `base` have in common, if the first was reached in the context `c` and
the second in the context `d`. -/
structure Twins (base : Environment) (c d : Provenance) (a b : Environment) : Prop where
  symbols : ∀ name, (a.lookup name).map Symbol.undefined = (b.lookup name).map Symbol.undefined
  scopes : ∀ name scope, (a.provenance? name scope).isSome = (b.provenance? name scope).isSome
  provenance : ∀ name scope,
    a.provenance? name scope = base.provenance? name scope ∧ b.provenance? name scope = base.provenance? name scope ∨
      a.provenance? name scope = some c ∧ b.provenance? name scope = some d

theorem Twins.refl (c d : Provenance) (env : Environment) : Twins env c d env env :=
  ⟨fun _ => rfl, fun _ _ => rfl, fun _ _ => .inl ⟨rfl, rfl⟩⟩

/-- Symbols with the same name and the same properties differ in their definitions at most. -/
private theorem map_undefined_eq {a b : Environment} {name : String}
    (hname : (a.symbolOf name).name = (b.symbolOf name).name)
    (hsome : (a.lookup name).isSome = true ↔ (b.lookup name).isSome = true)
    (hproperty : ∀ property, a.property? name property = b.property? name property) :
    (a.lookup name).map Symbol.undefined = (b.lookup name).map Symbol.undefined := by
  cases ha : a.lookup name with
  | none =>
    have hb : b.lookup name = none := by
      rw [← Option.not_isSome_iff_eq_none, ← hsome, ha]
      simp
    rw [hb]
  | some s =>
    have hb : (b.lookup name).isSome = true := by
      rw [← hsome, ha]
      rfl
    obtain ⟨t, ht⟩ := Option.isSome_iff_exists.1 hb
    rw [symbolOf_of_lookup ha, symbolOf_of_lookup ht] at hname
    simp only [property?, ha, ht, Option.bind_some] at hproperty
    have hst : s.undefined = t.undefined := by
      refine Symbol.ext_slots hname ?_ hproperty
      intro scope
      rfl
    rw [ht, Option.map_some, Option.map_some, hst]

private theorem twins_writeAll (c d : Provenance) (env : Environment) (ws : List Write) :
    Twins env c d (env.writeAll c ws) (env.writeAll d ws) where
  symbols := by
    intro name
    refine map_undefined_eq ?_ ?_ ?_
    · rw [name_symbolOf_writeAll, name_symbolOf_writeAll]
    · rw [isSome_lookup_writeAll, isSome_lookup_writeAll]
    · intro property
      rw [property?_writeAll, property?_writeAll]
  scopes := by
    intro name scope
    rw [provenance?_writeAll, provenance?_writeAll]
    split <;> rfl
  provenance := by
    intro name scope
    rw [provenance?_writeAll, provenance?_writeAll]
    by_cases hdefine : Write.define name scope ∈ ws
    · right
      rw [if_pos hdefine, if_pos hdefine]
      exact ⟨rfl, rfl⟩
    · left
      rw [if_neg hdefine, if_neg hdefine]
      exact ⟨rfl, rfl⟩

end Environment

/-- The changes that forms make are told by the forms alone, and so is their answer. -/
theorem twins_evalForms (c d : Provenance) (env : Environment) (forms : List Sexp) :
    let a := evalForms {} c env none forms
    let b := evalForms {} d env none forms
    a.answer = b.answer ∧ env.Twins c d a.env b.env := by
  intro a b
  refine ⟨answer_evalForms c d env env none forms, ?_⟩
  simp only [a, b, Declaration.env_evalForms_eq]
  exact Environment.twins_writeAll c d env _

namespace Interpreter

private theorem load_of_finds {i : Interpreter} {files : FileTable} {feature file : String} {forms : List Sexp}
    (h : i.Finds files feature file forms) :
    i.load files file = evalForms i.handlers { file := some file } i.env none forms := by
  obtain ⟨-, text, htext, hforms⟩ := h
  rw [load, loadIn]
  simp only [htext, hforms]

/-- Whether a file is loaded by itself or for a feature that is not there yet, the same is recorded up to provenances,
and the error is the same. -/
theorem twins_load_require {i : Interpreter} (hi : i.handlers = {}) {files : FileTable} {feature file : String}
    (hp : i.env.isProvided feature = false) (hfile : i.locate files feature = some file) :
    (i.load files file).ending.2 = (i.require files feature).ending.2 ∧
      i.env.Twins { file := some file } (origin file feature) (i.load files file).env
        (i.require files feature).env := by
  have hrequire := requiring i files feature
  generalize i.require files feature = required at hrequire ⊢
  cases hrequire with
  | provided hp' =>
    rw [hp] at hp'
    cases hp'
  | notFound _ hnone =>
    rw [hfile] at hnone
    cases hnone
  | @unreadable path error _ hpath htext =>
    obtain rfl : file = path := Option.some.inj (hfile.symm.trans hpath)
    have hload : i.load files file = .fail i.env (.file file error) := by
      simp only [load, loadIn, htext]
    rw [hload]
    exact ⟨rfl, .refl _ _ _⟩
  | @unparsable path text error _ hpath htext hforms =>
    obtain rfl : file = path := Option.some.inj (hfile.symm.trans hpath)
    have hload : i.load files file = .fail i.env (.read error) := by
      simp only [load, loadIn, htext, hforms]
    rw [hload]
    exact ⟨rfl, .refl _ _ _⟩
  | @stopped path forms error _ hfinds _ =>
    obtain rfl : file = path := Option.some.inj (hfile.symm.trans hfinds.1)
    obtain ⟨hanswer, htwins⟩ := twins_evalForms { file := some file } (origin file feature) i.env forms
    have houtcome := (Prod.mk.inj hanswer).2
    rw [load_of_finds hfinds, hi]
    refine ⟨?_, htwins⟩
    rw [Step.ending, Step.ending, houtcome]
  | @loaded path forms value _ hfinds hok =>
    obtain rfl : file = path := Option.some.inj (hfile.symm.trans hfinds.1)
    obtain ⟨hanswer, htwins⟩ := twins_evalForms { file := some file } (origin file feature) i.env forms
    have houtcome := (Prod.mk.inj hanswer).2
    rw [hi] at hok
    rw [load_of_finds hfinds, hi]
    refine ⟨?_, ?_⟩
    · rw [Step.ending, houtcome, hok]
      rfl
    · -- providing the feature changes no symbol
      exact ⟨htwins.symbols, htwins.scopes, htwins.provenance⟩

end Interpreter

/-- The context in which forms are handled flows into provenances and nowhere else: under two contexts the forms give
the same value or the same error, and leave the same features and the same symbols, up to the provenances of what they
define. In particular a file that is loaded by itself leaves what it leaves when it is loaded for a feature. -/
theorem context_flows_into_provenance (env : Environment) (c d : Provenance) (forms : List Sexp) :
    let a := evalForms {} c env none forms
    let b := evalForms {} d env none forms
    (a.outcome = b.outcome ∧ a.notices = b.notices ∧ a.env.features = b.env.features ∧ env.Twins c d a.env b.env) ∧
    ∀ (loadPath : List String) (suffix : String) (files : FileTable) (feature file : String),
      let i : Interpreter := { env := env, loadPath := loadPath, suffix := suffix }
      env.isProvided feature = false → i.locate files feature = some file →
        (i.load files file).ending.2 = (i.require files feature).ending.2 ∧
          env.Twins { file := some file } { file := some file, feature := some feature } (i.load files file).env
            (i.require files feature).env := by
  intro a b
  obtain ⟨hanswer, htwins⟩ := twins_evalForms c d env forms
  obtain ⟨hnotices, houtcome⟩ := Prod.mk.inj hanswer
  have hfeatures : a.env.features = b.env.features := by
    simp only [a, b, Declaration.features_evalForms]
  refine ⟨⟨houtcome, hnotices, hfeatures, htwins⟩, ?_⟩
  intro loadPath suffix files feature file i hp hfile
  exact Interpreter.twins_load_require (i := i) rfl hp hfile

end LispDoc
