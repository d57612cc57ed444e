import LispDoc.Proofs.Evaluation.Declaration
import LispDoc.Proofs.Sexp.FunctionQuotes

/-!
# What a program declares

The forms of a program are handled in order, each after it has been sanitized, and a wrapper stands for the forms
inside it. With all wrappers opened (`Sexp.callsAll`) a program is a sequence of declarations.

* Handling forms is doing what they declare, one after the other, up to the first error
  (`Declaration.ending_evalForms_calls`).
* Forms that are already as `Sexp.sanitize` leaves them have only such forms inside (`Sexp.sanitize_operands`), so that
  their wrappers can be opened without looking at marks again (`Sexp.spliceAll`, `Declaration.ending_evalForms`).
* If nothing fails, the changes of all declarations have been made (`Declaration.env_evalForms`).
-/

namespace LispDoc

/-! ### Wrappers -/

mutual
/-- What a form comes down to: it is sanitized, and the wrappers around it are opened. The forms inside a wrapper are
sanitized once more. -/
def Sexp.calls (form : Sexp) : List Sexp :=
  match _h : form.sanitize with
  | .list (.symbol operator :: operands) =>
    if operator ∈ Definition.bodyForms then Sexp.callsAll operands else [.list (.symbol operator :: operands)]
  | other => [other]
termination_by (form.size, 0)
decreasing_by
  have := Sexp.size_sanitize_le form
  rw [_h] at this
  simp only [Sexp.size, Sexp.sizeItems] at this
  exact Prod.Lex.left _ _ (by omega)

/-- What forms come down to, in order. -/
def Sexp.callsAll : List Sexp → List Sexp
  | [] => []
  | form :: forms => form.calls ++ Sexp.callsAll forms
termination_by forms => (Sexp.sizeItems forms, 1)
decreasing_by
  · simp only [Sexp.sizeItems]; exact Prod.Lex.left _ _ (by omega)
  · simp only [Sexp.sizeItems]; exact Prod.Lex.left _ _ (by omega)
end

mutual
/-- A form with the wrappers around it opened. -/
def Sexp.splice : Sexp → List Sexp
  | .list (.symbol operator :: operands) =>
    if operator ∈ ["eval-and-compile", "eval-when-compile"] then spliceAll operands
    else [.list (.symbol operator :: operands)]
  | form => [form]

/-- Forms in order, with the wrappers around them opened. -/
def Sexp.spliceAll : List Sexp → List Sexp
  | [] => []
  | form :: forms => form.splice ++ spliceAll forms
end

namespace Sexp

/-- Items that stay as they are have no stray mark among them, and each stays as it is. -/
theorem sanitize_of_mem {items : List Sexp} (h : sanitizeItems items = items) :
    ∀ item ∈ items, item.sanitize = item :=
  (sanitizeItems_eq_self_iff.1 h).2

theorem sanitize_operands {operator : Sexp} {operands : List Sexp}
    (h : (list (operator :: operands)).sanitize = list (operator :: operands)) :
    ∀ form ∈ operands, form.sanitize = form := by
  rw [sanitize] at h
  injection h with h
  exact fun form hform => sanitize_of_mem h form (List.mem_cons_of_mem _ hform)

private theorem calls_of_body {form : Sexp} {operator : String} {operands : List Sexp}
    (hs : form.sanitize = list (symbol operator :: operands)) (h : operator ∈ Definition.bodyForms) :
    form.calls = callsAll operands := by
  rw [calls]
  split
  · rename_i hs'
    rw [hs] at hs'
    cases hs'
    rw [if_pos h]
  · rename_i hcall
    exact absurd hs (hcall _ _)

private theorem calls_of_leaf {form call : Sexp} (hs : form.sanitize = call)
    (h : ∀ operator operands, call = list (symbol operator :: operands) → operator ∉ Definition.bodyForms) :
    form.calls = [call] := by
  rw [calls]
  split
  · rename_i hs'
    rw [hs] at hs'
    rw [if_neg (h _ _ hs'), hs']
  · rw [hs]

theorem callsAll_of_sanitized {forms : List Sexp} (hs : ∀ form ∈ forms, form.sanitize = form) :
    callsAll forms = spliceAll forms := by
  revert hs
  refine spliceAll.induct (fun form => form.sanitize = form → form.calls = form.splice)
    (fun forms => (∀ form ∈ forms, form.sanitize = form) → callsAll forms = spliceAll forms) ?_ ?_ ?_ ?_ ?_ forms
  · intro operator operands hbody ih hs
    rw [calls_of_body hs hbody, splice, if_pos hbody, ih (sanitize_operands hs)]
  · intro operator operands hbody hs
    rw [splice, if_neg hbody]
    refine calls_of_leaf hs fun o os h => ?_
    cases h
    exact hbody
  · intro form hcall hs
    have hsplice : form.splice = [form] := by
      unfold splice
      split
      · exact absurd rfl (hcall _ _)
      · rfl
    rw [hsplice]
    exact calls_of_leaf hs fun o os h => absurd h (hcall o os)
  · intro _
    rw [callsAll, spliceAll]
  · intro form forms ih1 ih2 hs
    rw [callsAll, spliceAll, ih1 (hs form (by simp)), ih2 fun f hf => hs f (by simp [hf])]

end Sexp

/-! ### Programs -/

namespace Declaration

variable (context : Provenance)

/-- Does what forms declare, one after the other, up to the first error. -/
def performAll (env : Environment) : List Sexp → Environment × Option LispError
  | [] => (env, none)
  | form :: forms =>
    match perform context env form with
    | (env, none) => performAll env forms
    | failed => failed

theorem performAll_append (env : Environment) (as bs : List Sexp) :
    performAll context env (as ++ bs) =
      match performAll context env as with
      | (env, none) => performAll context env bs
      | failed => failed := by
  induction as generalizing env with
  | nil => rfl
  | cons form as ih =>
    rw [List.cons_append, performAll, performAll]
    rcases perform context env form with ⟨env, _ | error⟩
    · exact ih env
    · rfl

theorem performAll_singleton (env : Environment) (form : Sexp) :
    performAll context env [form] = perform context env form := by
  rw [performAll]
  rcases perform context env form with ⟨env, _ | error⟩ <;> rfl

/-- A step for the first form and one for the others. -/
theorem ending_evalForms_cons (handlers : Handlers) (env : Environment) (last : Option Sexp) (form : Sexp)
    (forms : List Sexp) :
    ∃ value, (evalForms handlers context env last (form :: forms)).ending =
      match (evalForm handlers context env form).ending with
      | (env, none) => (evalForms handlers context env value forms).ending
      | failed => failed := by
  rw [evalForms]
  rcases evalForm handlers context env form with ⟨after, notices, error | value⟩
  · exact ⟨none, rfl⟩
  · exact ⟨value, rfl⟩

theorem find?_of_mem_bodyForms {operator : String} (h : operator ∈ Definition.bodyForms) :
    ({} : Handlers).find? operator = some .body := by
  simp only [Definition.bodyForms, List.mem_cons, List.not_mem_nil, or_false] at h
  rcases h with rfl | rfl <;> rfl

/-- Handling forms is doing what they come down to, in order. -/
theorem ending_evalForms_calls (env : Environment) (last : Option Sexp) (forms : List Sexp) :
    (evalForms {} context env last forms).ending = performAll context env (Sexp.callsAll forms) := by
  -- the induction goes along the recursion that opens wrappers, with the same statement about one form
  revert env last
  refine Sexp.callsAll.induct
    (fun form => ∀ env, (evalForm {} context env form).ending = performAll context env form.calls)
    (fun forms => ∀ env last, (evalForms {} context env last forms).ending =
      performAll context env (Sexp.callsAll forms)) ?_ ?_ ?_ ?_ ?_ forms
  · intro form operator operands hs hbody ih env
    rw [evalForm_call context _ env hs, find?_of_mem_bodyForms hbody, Sexp.calls_of_body hs hbody]
    exact ih env none
  · intro form operator operands hs hbody env
    have hcalls := Sexp.calls_of_leaf hs fun o os h => by
      cases h
      exact hbody
    rw [hcalls, performAll_singleton]
    refine ending_evalForm context env hs fun o os h => ?_
    cases h
    exact hbody
  · intro form hcall env
    have hleaf : ∀ operator operands, form.sanitize = .list (.symbol operator :: operands) →
        operator ∉ Definition.bodyForms := fun operator operands h => absurd h (hcall operator operands)
    rw [Sexp.calls_of_leaf rfl hleaf, performAll_singleton]
    exact ending_evalForm context env rfl hleaf
  · intro env last
    rw [evalForms, Sexp.callsAll]
    rfl
  · -- the value of the first form does not matter to where the others end
    intro form forms ih1 ih2 env last
    obtain ⟨value, hcons⟩ := ending_evalForms_cons context {} env last form forms
    rw [hcons, Sexp.callsAll, performAll_append, ih1 env]
    rcases performAll context env form.calls with ⟨after, _ | error⟩
    · exact ih2 after value
    · rfl

/-- Handling forms is doing what they declare, in order and with the wrappers opened. -/
theorem ending_evalForms (env : Environment) (last : Option Sexp) {forms : List Sexp}
    (hs : ∀ form ∈ forms, form.sanitize = form) :
    (evalForms {} context env last forms).ending = performAll context env (Sexp.spliceAll forms) := by
  rw [ending_evalForms_calls, Sexp.callsAll_of_sanitized hs]

theorem ending_evalText (env : Environment) {text : String} {forms : List Sexp}
    (hread : Sexp.readForms text = .ok forms) (hs : ∀ form ∈ forms, form.sanitize = form) :
    (evalText {} context env text).ending = performAll context env (Sexp.spliceAll forms) := by
  rw [evalText, hread]
  exact ending_evalForms context env none hs

/-- The declarations of forms, in order and with the wrappers opened. -/
def ofForms (forms : List Sexp) : List Declaration := (Sexp.spliceAll forms).filterMap ofForm?

private theorem performAll_fst {env : Environment} {forms : List Sexp} (h : (performAll context env forms).2 = none) :
    (performAll context env forms).1 = env.writeAll context ((forms.filterMap ofForm?).flatMap writes) := by
  induction forms generalizing env with
  | nil => rfl
  | cons form forms ih =>
    rw [performAll] at h ⊢
    rcases hfirst : perform context env form with ⟨after, _ | error⟩
    · rw [hfirst] at h
      rw [ih h]
      have hafter : after = env.writeAll context (((ofForm? form).map writes).getD []) := by
        rw [perform] at hfirst
        split at hfirst
        · cases hfirst
        · rw [← Environment.record_fst context (by rw [hfirst]), hfirst]
      rw [hafter, List.filterMap_cons]
      cases ofForm? form with
      | none => rfl
      | some d => rw [List.flatMap_cons, Environment.writeAll_append]; rfl
    · rw [hfirst] at h
      cases h

/-- If nothing fails, the changes of all declarations have been made. -/
theorem env_evalForms (env : Environment) (last : Option Sexp) {forms : List Sexp} {value : Option Sexp}
    (hs : ∀ form ∈ forms, form.sanitize = form)
    (hok : (evalForms {} context env last forms).outcome = .ok value) :
    (evalForms {} context env last forms).env = env.writeAll context ((ofForms forms).flatMap writes) := by
  have hending := ending_evalForms context env last hs
  have herror : (evalForms {} context env last forms).ending.2 = none := by rw [Step.ending, hok]
  rw [ofForms, ← performAll_fst context (by rw [← hending, herror]), ← hending]
  rfl

end Declaration

end LispDoc
