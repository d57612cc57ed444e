import LispDoc.Proofs.Evaluation.Session
import LispDoc.Proofs.Sexp.Equality

/-!
# References that lead nowhere

A property may refer to another symbol by name. A property setting interns the symbol that it refers to, but the
`:safe` keyword of a variable or face definition records its predicate without doing so.

References dangle for this reason and for no other (`dangles_evalText_iff`): those that do are the safety predicates
that were left in place and that no form interns.
-/

namespace LispDoc

/-- A property of a name refers to a symbol that does not exist. -/
def Environment.Dangles (env : Environment) (name property referred : String) : Prop :=
  env.property? name property = some (.symbol referred) ∧ env.lookup referred = none

/-- The changes that a text makes. A text that cannot be read makes none. -/
def Declaration.effectsOf (text : String) : List Write :=
  match Sexp.readForms text with
  | .ok forms => effectsAll (Sexp.callsAll forms)
  | .error _ => []

namespace Environment

variable (context : Provenance)

theorem env_evalText (env : Environment) (text : String) :
    (evalText {} context env text).env = env.writeAll context (Declaration.effectsOf text) := by
  unfold evalText Declaration.effectsOf
  cases Sexp.readForms text with
  | error error => rfl
  | ok forms => exact Declaration.env_evalForms_eq context env none forms

private theorem sound_effectsOf (text : String) : Write.Sound (Declaration.effectsOf text) := by
  unfold Declaration.effectsOf
  split
  · exact Declaration.sound_effectsAll _
  · exact .nil

/-- From nothing, a property is what the last change of it made it. -/
private theorem property?_writeAll_empty (ws : List Write) (name property : String) :
    (empty.writeAll context ws).property? name property = Write.last? empty name property ws := by
  have hempty : empty.property? name property = none := rfl
  rw [property?_writeAll, hempty, Option.or_none]

private theorem lookup_writeAll_empty {ws : List Write} {name : String} :
    (empty.writeAll context ws).lookup name = none ↔ ∀ w ∈ ws, w.name ≠ name := by
  have h := isSome_lookup_writeAll context empty ws name
  have hempty : (empty.lookup name).isSome = false := rfl
  rw [hempty, Bool.false_eq_true, or_false] at h
  rw [← Option.not_isSome_iff_eq_none, h]
  simp only [not_exists, not_and, ne_eq]

/-- A change that makes a property refer to a symbol: the symbol is interned by another change, or the property is a
safety predicate. -/
private theorem eq_safe_or_interned {ws : List Write} (hws : Write.Sound ws) {name property referred : String}
    (h : Write.last? empty name property ws = some (.symbol referred)) :
    property = Property.safeLocalVariable ∨ ∃ w ∈ ws, w.name = referred := by
  obtain ⟨w, hw, hvalue⟩ := List.exists_of_findSome?_eq_some h
  rw [List.mem_reverse] at hw
  cases w with
  | intern n => simp [Write.value?] at hvalue
  | define n scope => simp [Write.value?] at hvalue
  | set n p value =>
    rw [Write.value?, Option.ite_none_right_eq_some] at hvalue
    obtain ⟨⟨rfl, rfl⟩, hvalue⟩ := hvalue
    obtain rfl := Option.some.inj hvalue
    exact .inl (hws.constant hw)
  | refer n p r =>
    rw [Write.value?, Option.ite_none_right_eq_some] at hvalue
    obtain ⟨-, hvalue⟩ := hvalue
    have hr : (empty.symbolOf r).name = r := wellFormed_empty.name_symbolOf r
    simp only [hr, Option.some.injEq, PropertyValue.symbol.injEq] at hvalue
    subst hvalue
    exact .inr (hws.interned hw)

end Environment

/-- After a text has been read and evaluated, as far as it goes, a reference dangles exactly if it is a safety predicate
that was set last and that no change is about. -/
theorem dangles_evalText_iff (context : Provenance) (text name property referred : String) :
    (evalText {} context .empty text).env.Dangles name property referred ↔
      property = Property.safeLocalVariable ∧
      Write.last? .empty name property (Declaration.effectsOf text) = some (.symbol referred) ∧
      ∀ w ∈ Declaration.effectsOf text, w.name ≠ referred := by
  rw [Environment.Dangles, Environment.env_evalText, Environment.property?_writeAll_empty,
    Environment.lookup_writeAll_empty]
  constructor
  · rintro ⟨hlast, habsent⟩
    rcases Environment.eq_safe_or_interned (Environment.sound_effectsOf text) hlast with hsafe | ⟨w, hw, hname⟩
    · exact ⟨hsafe, hlast, habsent⟩
    · exact absurd hname (habsent w hw)
  · rintro ⟨-, hlast, habsent⟩
    exact ⟨hlast, habsent⟩

attribute [local instance] Sexp.decEq

/-- The predicate of a variable that is declared safe is not interned. -/
theorem dangles_safe_predicate :
    (evalText {} {} .empty "(defvar v 1 \"D\" :safe 'stringp)").env.Dangles "v" Property.safeLocalVariable
      "stringp" := by
  have hread : Sexp.readForms "(defvar v 1 \"D\" :safe 'stringp)" =
      .ok [.list [.symbol "defvar", .symbol "v", .integer 1, .string "D", .symbol ":safe",
        .quoted (.symbol "stringp")]] := by
    decide +kernel
  have henv : (evalText {} {} .empty "(defvar v 1 \"D\" :safe 'stringp)").env = _ :=
    congrArg Prod.fst (Declaration.ending_evalText {} .empty hread (Sexp.sanitize_of_mem rfl))
  rw [henv]
  constructor
  · decide
  · decide

end LispDoc
