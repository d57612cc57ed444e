import LispDoc.Proofs.Evaluation.Answer
import LispDoc.Proofs.Evaluation.Session

/-!
# Handling forms again

Handling the same forms a second time, from where the first time ended, changes nothing and answers the same
(`evalForms_again`). It does not matter whether the first time ended with an error.

The forms make the same changes both times, since these are told by the forms alone. So every slot is given the value
that it already has: the one of the last change that is about it. Nothing else can tell environments apart
(`Environment.ext_slots`).
-/

namespace LispDoc

/-- Of the environment, a change only ever looks at the names of symbols. -/
theorem Write.last?_congr {a b : Environment} (h : ∀ name, (a.symbolOf name).name = (b.symbolOf name).name)
    (name property : String) (ws : List Write) : last? a name property ws = last? b name property ws := by
  have hvalue : value? a name property = value? b name property := by
    funext w
    cases w with
    | refer n p referred => simp only [value?, h referred]
    | _ => rfl
  unfold last?
  rw [hvalue]

theorem Symbol.ext_slots {s t : Symbol} (hname : s.name = t.name)
    (hscopes : ∀ scope, s.provenance? scope = t.provenance? scope)
    (hproperties : ∀ property, s.property? property = t.property? property) : s = t := by
  obtain ⟨n, ss, ps⟩ := s
  obtain ⟨m, ts, qs⟩ := t
  have h1 : n = m := hname
  have h2 : ss = ts := Scopes.ext_get? hscopes
  have h3 : ps = qs := Table.ext_get? hproperties
  subst h1 h2 h3
  rfl

namespace Environment

/-- Environments with the same symbols under the same names, the same slots and the same features are equal. -/
theorem ext_slots {a b : Environment} (hnames : ∀ name, (a.symbolOf name).name = (b.symbolOf name).name)
    (hsymbols : ∀ name, (a.lookup name).isSome = true ↔ (b.lookup name).isSome = true)
    (hprovenance : ∀ name scope, a.provenance? name scope = b.provenance? name scope)
    (hproperty : ∀ name property, a.property? name property = b.property? name property)
    (hfeatures : a.features = b.features) : a = b := by
  refine ext_lookup (fun name => ?_) hfeatures
  have hsymbol : a.symbolOf name = b.symbolOf name := by
    refine Symbol.ext_slots (hnames name) ?_ ?_
    · intro scope
      rw [← provenance?_eq, ← provenance?_eq, hprovenance]
    · intro property
      rw [← property?_eq, ← property?_eq, hproperty]
  cases ha : a.lookup name with
  | none =>
    have hb : ¬ (b.lookup name).isSome = true := by
      rw [← hsymbols, ha]
      simp
    exact (Option.not_isSome_iff_eq_none.1 hb).symm
  | some s =>
    have hb : (b.lookup name).isSome = true := by
      rw [← hsymbols, ha]
      rfl
    obtain ⟨t, ht⟩ := Option.isSome_iff_exists.1 hb
    rw [symbolOf_of_lookup ha, symbolOf_of_lookup ht] at hsymbol
    rw [ht, hsymbol]

variable (context : Provenance)

theorem last?_writeAll (env : Environment) (vs ws : List Write) (name property : String) :
    Write.last? (env.writeAll context vs) name property ws = Write.last? env name property ws :=
  Write.last?_congr (name_symbolOf_writeAll context env vs) name property ws

/-- Changes that have been made are not made again. -/
private theorem writeAll_writeAll (env : Environment) (ws : List Write) :
    (env.writeAll context ws).writeAll context ws = env.writeAll context ws := by
  refine ext_slots ?_ ?_ ?_ ?_ ?_
  · intro name
    rw [name_symbolOf_writeAll]
  · intro name
    rw [isSome_lookup_writeAll]
    constructor
    · rintro (hnew | hold)
      · exact (isSome_lookup_writeAll context env ws name).2 (.inl hnew)
      · exact hold
    · intro h
      exact .inr h
  · intro name scope
    rw [provenance?_writeAll, provenance?_writeAll]
    by_cases hdefine : Write.define name scope ∈ ws
    · rw [if_pos hdefine, if_pos hdefine]
    · rw [if_neg hdefine]
  · intro name property
    rw [property?_writeAll, last?_writeAll, property?_writeAll, ← Option.or_assoc, Option.or_self]
  · rw [features_writeAll]

end Environment

/-- Handling forms once more, from where they ended, gives the same step: the same environment, the same notices, and
the same value or the same error. -/
theorem evalForms_again (context : Provenance) (env : Environment) (forms : List Sexp) :
    let step := evalForms {} context env none forms
    evalForms {} context step.env none forms = step := by
  intro step
  have henv : (evalForms {} context step.env none forms).env = step.env := by
    rw [Declaration.env_evalForms_eq]
    simp only [step, Declaration.env_evalForms_eq]
    exact Environment.writeAll_writeAll context env _
  obtain ⟨hnotices, houtcome⟩ := Prod.mk.inj (answer_evalForms context context step.env env none forms)
  -- a step is an environment and an answer
  show Step.mk _ _ _ = Step.mk _ _ _
  rw [henv, hnotices, houtcome]

end LispDoc
