import LispDoc.Proofs.Evaluation.Effects

/-!
# What forms answer

A step answers with notices and with a value or an error. Under the default handlers the answer can be told from the
forms alone: two runs of the same forms answer the same, whatever the environments they start from and the contexts
they run in (`answer_evalForms`).

This is a matter of each handler (`Definition.Recorder.Steady`): all that a definition ever asks of the environment is
to change a symbol, and whether that fails depends on the name of the symbol.
-/

namespace LispDoc

/-- What a step says: its notices, and its value or its error. -/
def Step.answer (step : Step) : List Notice × Except LispError (Option Sexp) := (step.notices, step.outcome)

namespace Definition

/-- The answer of a definition is told by the form. -/
def Recorder.Steady (recorder : Recorder) : Prop :=
  ∀ (c c' : Provenance) (env env' : Environment) (operator : String) (operands : List Sexp),
    (recorder c operator operands env).answer = (recorder c' operator operands env').answer

/-! ### Changing one symbol -/

private theorem answer_ofUpdate (env env' : Environment) (notices : List Notice) (form : Sexp) (f g : Symbol → Symbol) :
    (Step.ofUpdate env notices (env.updateForm form f)).answer =
      (Step.ofUpdate env' notices (env'.updateForm form g)).answer := by
  cases form with
  | symbol name =>
    have hupdate : ∀ (e : Environment) (h : Symbol → Symbol), e.updateForm (.symbol name) h = e.update name h :=
      fun _ _ => rfl
    rw [hupdate, hupdate, Environment.update_eq, Environment.update_eq]
    by_cases hname : isSymbolName name = true
    · rw [if_pos hname, if_pos hname]
      rfl
    · rw [if_neg hname, if_neg hname]
      rfl
  | _ => rfl

private theorem answer_accessors (c c' : Provenance) (stem : String) (env env' : Environment) (slots : List String) :
    (accessors c stem env slots).answer = (accessors c' stem env' slots).answer := by
  induction slots generalizing env env' with
  | nil => rfl
  | cons slot slots ih =>
    rw [accessors, accessors, Environment.update_eq, Environment.update_eq]
    by_cases hname : isSymbolName (stem ++ slot) = true
    · rw [if_pos hname, if_pos hname]
      exact ih _ _
    · rw [if_neg hname, if_neg hname]
      rfl

private theorem answer_store (env env' : Environment) (name property : String) (v w : PropertyValue) (value : Sexp) :
    (store env name property v value).answer = (store env' name property w value).answer := by
  rw [store, store, Environment.update_eq, Environment.update_eq]
  by_cases hname : isSymbolName name = true
  · rw [if_pos hname, if_pos hname]
    rfl
  · rw [if_neg hname, if_neg hname]
    rfl

/-! ### The default handlers -/

private theorem steady_function : Recorder.Steady function := by
  intro c c' env env' operator operands
  cases operands with
  | nil => rfl
  | cons name rest => exact answer_ofUpdate env env' _ name _ _

private theorem steady_var : Recorder.Steady var := by
  intro c c' env env' operator operands
  cases operands with
  | nil => rfl
  | cons name rest => exact answer_ofUpdate env env' _ name _ _

private theorem steady_face : Recorder.Steady face := by
  intro c c' env env' operator operands
  cases operands with
  | nil => rfl
  | cons name rest => exact answer_ofUpdate env env' _ name _ _

private theorem steady_struct : Recorder.Steady struct := by
  intro c c' env env' operator operands
  cases operands with
  | nil => rfl
  | cons spec rest =>
    cases hspec : structHead? spec with
    | none =>
      simp only [struct, hspec]
      rfl
    | some head =>
      simp only [struct, hspec, Environment.update_eq]
      by_cases hname : isSymbolName head.1 = true
      · simp only [if_pos hname]
        exact answer_accessors c c' head.2 _ _ _
      · simp only [if_neg hname]
        rfl

private theorem steady_put : Recorder.Steady put := by
  intro c c' env env' operator operands
  unfold put
  split
  · split
    · split
      -- a quoted symbol has to be interned before anything is stored
      · rename_i referred hvalue
        simp only [Environment.intern, Environment.update_eq]
        by_cases hname : isSymbolName referred = true
        · simp only [if_pos hname]
          exact answer_store _ _ _ _ _ _ _
        · simp only [if_neg hname]
          rfl
      · split
        · exact answer_store _ _ _ _ _ _ _
        · rfl
    · rfl
  · rfl

private theorem steady_of_default? {operator : String} {recorder : Recorder}
    (h : Handler.default? operator = some (.record recorder)) : Recorder.Steady recorder := by
  unfold Handler.default? at h
  split at h
  · cases h
    exact steady_function
  split at h
  · cases h
    exact steady_var
  split at h
  · cases h
  split at h
  · cases h
    exact steady_face
  split at h
  · cases h
    exact steady_put
  split at h
  · cases h
    exact steady_struct
  · cases h

end Definition

/-! ### Programs -/

private theorem mem_bodyForms_of_default? {operator : String} (h : Handler.default? operator = some .body) :
    operator ∈ Definition.bodyForms := by
  by_cases hbody : operator ∈ Definition.bodyForms
  · exact hbody
  · unfold Handler.default? at h
    simp only [if_neg hbody] at h
    split at h
    · cases h
    split at h
    · cases h
    split at h
    · cases h
    split at h
    · cases h
    split at h <;> cases h

/-- A form that is no call of an operator is passed over. -/
private theorem evalForm_of_no_call {form : Sexp}
    (h : ∀ operator operands, form.sanitize ≠ .list (.symbol operator :: operands)) :
    ∃ notices, ∀ handlers context env, evalForm handlers context env form = .skip env notices := by
  by_cases hlist : ∃ head rest, form.sanitize = .list (head :: rest)
  · obtain ⟨head, rest, hs⟩ := hlist
    refine ⟨[.noOperator (.list (head :: rest))], fun handlers context env => ?_⟩
    rw [evalForm]
    split
    · rename_i hcall
      exact absurd hcall (h _ _)
    · rename_i hother
      rw [hs] at hother
      cases hother
      rfl
    · rename_i hother
      exact absurd hs (hother _ _)
  · refine ⟨[.notACall form.sanitize], fun handlers context env => ?_⟩
    rw [evalForm]
    split
    · rename_i hcall
      exact absurd hcall (h _ _)
    · rename_i hother
      exact absurd ⟨_, _, hother⟩ hlist
    · rfl

private theorem answer_evalForms_cons {c c' : Provenance} {env env' : Environment} {last last' : Option Sexp}
    {form : Sexp} {forms : List Sexp} (hform : (evalForm {} c env form).answer = (evalForm {} c' env' form).answer)
    (hforms : ∀ env env' last, (evalForms {} c env last forms).answer = (evalForms {} c' env' last forms).answer) :
    (evalForms {} c env last (form :: forms)).answer = (evalForms {} c' env' last' (form :: forms)).answer := by
  obtain ⟨hnotices, houtcome⟩ := Prod.mk.inj hform
  rw [evalForms, evalForms, houtcome]
  cases (evalForm {} c' env' form).outcome with
  | error error => exact hform
  | ok value =>
    obtain ⟨hn, ho⟩ := Prod.mk.inj (hforms (evalForm {} c env form).env (evalForm {} c' env' form).env value)
    show (_ ++ _, _) = (_ ++ _, _)
    rw [hnotices, hn, ho]

/-- Under the default handlers the answer of forms depends neither on the environment nor on the context. -/
theorem answer_evalForms (c c' : Provenance) (env env' : Environment) (last : Option Sexp) (forms : List Sexp) :
    (evalForms {} c env last forms).answer = (evalForms {} c' env' last forms).answer := by
  -- along the recursion that opens wrappers, with the same statement about one form
  revert env env' last
  refine Sexp.callsAll.induct
    (fun form => ∀ env env', (evalForm {} c env form).answer = (evalForm {} c' env' form).answer)
    (fun forms => ∀ env env' last,
      (evalForms {} c env last forms).answer = (evalForms {} c' env' last forms).answer) ?_ ?_ ?_ ?_ ?_ forms
  · intro form operator operands hs hbody ih env env'
    rw [Declaration.evalForm_call c _ env hs, Declaration.evalForm_call c' _ env' hs,
      Declaration.find?_of_mem_bodyForms hbody]
    exact ih env env' none
  · intro form operator operands hs hbody env env'
    have hfind : ({} : Handlers).find? operator = Handler.default? operator := rfl
    rw [Declaration.evalForm_call c _ env hs, Declaration.evalForm_call c' _ env' hs, hfind]
    cases hdefault : Handler.default? operator with
    | none => rfl
    | some handler =>
      cases handler with
      | record recorder => exact Definition.steady_of_default? hdefault c c' env env' operator operands
      | body => exact absurd (mem_bodyForms_of_default? hdefault) hbody
  · intro form hcall env env'
    obtain ⟨notices, hskip⟩ := evalForm_of_no_call hcall
    rw [hskip, hskip]
    rfl
  · intro env env' last
    rw [evalForms, evalForms]
    rfl
  · intro form forms ih1 ih2 env env' last
    exact answer_evalForms_cons (ih1 env env') ih2

theorem outcome_evalForms (c c' : Provenance) (env env' : Environment) (last : Option Sexp) (forms : List Sexp) :
    (evalForms {} c env last forms).outcome = (evalForms {} c' env' last forms).outcome :=
  congrArg Prod.snd (answer_evalForms c c' env env' last forms)

end LispDoc
