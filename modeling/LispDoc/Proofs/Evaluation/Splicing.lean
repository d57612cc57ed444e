import LispDoc.Proofs.Evaluation.Program

/-!
# Opening wrappers

A wrapper stands for the forms inside it, so a list of forms can be replaced by the list with all wrappers opened
(`Sexp.spliceAll`). Handling either makes the same changes, notes the same and stops with the same error, wherever in
the nesting that error comes up (`Declaration.ending_spliceAll`). The other handlers do not matter.

Only the value may differ, and the reason is a wrapper with nothing inside: it has no value, while in the spliced list
the form before it is the last one. So values are left out from the start (`Step.course`), and what is left of a list of
forms is what is left of its parts one after the other (`course_evalForms_append`).
-/

namespace LispDoc

/-! ### One step after the other -/

/-- What is noted, and how it ends. -/
abbrev Course := List Notice × Environment × Option LispError

/-- All of a step but its value. -/
def Step.course (step : Step) : Course := (step.notices, step.ending)

namespace Course

/-- One course after the other, unless the first ends with an error. -/
def andThen (first : Course) (next : Environment → Course) : Course :=
  match first with
  | (notices, env, none) => (notices ++ (next env).1, (next env).2)
  | failed => failed

private theorem andThen_assoc (first : Course) (second third : Environment → Course) :
    andThen (andThen first second) third = andThen first fun env => andThen (second env) third := by
  obtain ⟨notices, env, _ | error⟩ := first
  · simp only [andThen]
    obtain ⟨more, after, _ | error⟩ := second env
    · simp only [List.append_assoc]
    · rfl
  · rfl

end Course

section

variable (handlers : Handlers) (context : Provenance)

private theorem course_evalForms_nil (env : Environment) (last : Option Sexp) :
    (evalForms handlers context env last []).course = ([], env, none) := by
  rw [evalForms]
  rfl

private theorem course_evalForms_last (env : Environment) (last last' : Option Sexp) (forms : List Sexp) :
    (evalForms handlers context env last forms).course = (evalForms handlers context env last' forms).course := by
  cases forms with
  | nil => rw [course_evalForms_nil, course_evalForms_nil]
  | cons form forms => rw [evalForms, evalForms]

private theorem course_evalForms_cons (env : Environment) (last : Option Sexp) (form : Sexp) (forms : List Sexp) :
    (evalForms handlers context env last (form :: forms)).course =
      Course.andThen (evalForm handlers context env form).course fun env =>
        (evalForms handlers context env none forms).course := by
  rw [evalForms]
  cases hform : evalForm handlers context env form with
  | mk after notices outcome =>
    cases outcome with
    | error error => rfl
    | ok value =>
      -- the value only goes on to be the value of an empty rest
      have hrest := course_evalForms_last handlers context after value none forms
      obtain ⟨hnotices, hending⟩ := Prod.mk.inj hrest
      show (notices ++ (evalForms handlers context after value forms).notices,
          (evalForms handlers context after value forms).ending) =
        (notices ++ (evalForms handlers context after none forms).notices,
          (evalForms handlers context after none forms).ending)
      rw [hnotices, hending]

private theorem course_evalForms_singleton (env : Environment) (last : Option Sexp) (form : Sexp) :
    (evalForms handlers context env last [form]).course = (evalForm handlers context env form).course := by
  rw [course_evalForms_cons]
  obtain ⟨notices, after, _ | error⟩ := (evalForm handlers context env form).course
  · simp only [Course.andThen, course_evalForms_nil, List.append_nil]
  · rfl

theorem course_evalForms_append (env : Environment) (last : Option Sexp) (as bs : List Sexp) :
    (evalForms handlers context env last (as ++ bs)).course =
      Course.andThen (evalForms handlers context env last as).course fun env =>
        (evalForms handlers context env none bs).course := by
  induction as generalizing env last with
  | nil =>
    rw [List.nil_append, course_evalForms_nil, course_evalForms_last handlers context env last none]
    rfl
  | cons form as ih =>
    have hafter : ∀ env : Environment, (evalForms handlers context env none (as ++ bs)).course =
        Course.andThen (evalForms handlers context env none as).course fun env =>
          (evalForms handlers context env none bs).course := fun env => ih env none
    rw [List.cons_append, course_evalForms_cons, course_evalForms_cons, Course.andThen_assoc]
    simp only [hafter]

end

/-! ### The spliced list -/

namespace Sexp

/-- A call of an operator that stands for its operands. -/
def IsWrapper (form : Sexp) : Prop :=
  ∃ operator ∈ Definition.bodyForms, ∃ operands, form = list (symbol operator :: operands)

private theorem splice_of_not_isWrapper {form : Sexp} (h : ¬ form.IsWrapper) : form.splice = [form] := by
  unfold splice
  split
  · rename_i operator operands
    have hbody : operator ∉ Definition.bodyForms := fun hbody => h ⟨operator, hbody, operands, rfl⟩
    exact if_neg hbody
  · rfl

private theorem not_isWrapper_of_mem_spliceAll {forms : List Sexp} : ∀ form ∈ spliceAll forms, ¬ form.IsWrapper := by
  refine spliceAll.induct (fun form => ∀ f ∈ form.splice, ¬ f.IsWrapper)
    (fun forms => ∀ f ∈ spliceAll forms, ¬ f.IsWrapper) ?_ ?_ ?_ ?_ ?_ forms
  · intro operator operands hbody ih
    rw [splice, if_pos hbody]
    exact ih
  · intro operator operands hbody f hf
    rw [splice, if_neg hbody, List.mem_singleton] at hf
    rintro ⟨o, ho, os, rfl⟩
    cases hf
    exact hbody ho
  · intro form hcall f hf
    have hleaf : ¬ form.IsWrapper := by
      rintro ⟨o, -, os, rfl⟩
      exact hcall o os rfl
    rw [splice_of_not_isWrapper hleaf, List.mem_singleton] at hf
    rw [hf]
    exact hleaf
  · rw [spliceAll]
    simp
  · intro form forms ih1 ih2 f hf
    rw [spliceAll, List.mem_append] at hf
    rcases hf with hf | hf
    · exact ih1 f hf
    · exact ih2 f hf

end Sexp

namespace Declaration

variable {handlers : Handlers} (context : Provenance)

private theorem course_spliceAll (hbody : ∀ operator ∈ Definition.bodyForms, handlers.find? operator = some .body)
    {forms : List Sexp} (hs : ∀ form ∈ forms, form.sanitize = form) (env : Environment) (last : Option Sexp) :
    (evalForms handlers context env last (Sexp.spliceAll forms)).course =
      (evalForms handlers context env last forms).course := by
  revert hs env last
  refine Sexp.spliceAll.induct
    (fun form => form.sanitize = form → ∀ env last,
      (evalForms handlers context env last form.splice).course = (evalForm handlers context env form).course)
    (fun forms => (∀ form ∈ forms, form.sanitize = form) → ∀ env last,
      (evalForms handlers context env last (Sexp.spliceAll forms)).course =
        (evalForms handlers context env last forms).course) ?_ ?_ ?_ ?_ ?_ forms
  · -- the handler of a wrapper sanitizes the forms inside once more, which leaves them as they are
    intro operator operands hop ih hs env last
    have hinside := ih (Sexp.sanitize_operands hs) env last
    rw [Sexp.splice, if_pos hop, hinside, evalForm_call context handlers env hs, hbody operator hop]
    exact course_evalForms_last handlers context env last none operands
  · intro operator operands hop hs env last
    rw [Sexp.splice, if_neg hop]
    exact course_evalForms_singleton handlers context env last _
  · intro form hcall hs env last
    have hleaf : ¬ form.IsWrapper := by
      rintro ⟨o, -, os, rfl⟩
      exact hcall o os rfl
    rw [Sexp.splice_of_not_isWrapper hleaf]
    exact course_evalForms_singleton handlers context env last form
  · intro _ env last
    rw [Sexp.spliceAll]
  · intro form forms ih1 ih2 hs env last
    have hform := ih1 (hs form (by simp)) env last
    have hforms : ∀ env, (evalForms handlers context env none (Sexp.spliceAll forms)).course =
        (evalForms handlers context env none forms).course :=
      fun env => ih2 (fun f hf => hs f (by simp [hf])) env none
    rw [Sexp.spliceAll, course_evalForms_append, hform, course_evalForms_cons]
    simp only [hforms]

/-- Wrappers are transparent, whatever the other handlers: sanitized forms, and the same forms with every wrapper
opened, end in the same environment with the same error, if any, and note the same. No wrapper is left to open. -/
theorem ending_spliceAll (hbody : ∀ operator ∈ Definition.bodyForms, handlers.find? operator = some .body)
    (env : Environment) (forms : List Sexp) (hs : ∀ form ∈ forms, form.sanitize = form) :
    let nested := evalForms handlers context env none forms
    let spliced := evalForms handlers context env none (Sexp.spliceAll forms)
    (∀ form ∈ Sexp.spliceAll forms, ¬ form.IsWrapper) ∧
      spliced.ending = nested.ending ∧ spliced.notices = nested.notices := by
  intro nested spliced
  obtain ⟨hnotices, hending⟩ := Prod.mk.inj (course_spliceAll context hbody hs env none)
  exact ⟨Sexp.not_isWrapper_of_mem_spliceAll, hending, hnotices⟩

/-- Two levels of wrappers around a setting, and an error on the second level with more forms behind it. -/
def wrapped : List Sexp :=
  [.list [.symbol "eval-and-compile",
      .list [.symbol "put", .quoted (.symbol "a"), .quoted (.symbol "b"), .integer 1],
      .list [.symbol "eval-when-compile", .list [.symbol "defvar", .symbol "v"], .list [.symbol "defun"],
        .list [.symbol "defvar", .symbol "w"]],
      .list [.symbol "defface", .symbol "f"]],
    .list [.symbol "eval-and-compile"]]

theorem ending_spliceAll_wrapped :
    (∀ operator ∈ Definition.bodyForms, ({} : Handlers).find? operator = some .body) ∧
      (∀ form ∈ wrapped, form.sanitize = form) ∧ (Sexp.spliceAll wrapped).length = 5 ∧
      (evalForms {} {} .empty none (Sexp.spliceAll wrapped)).ending =
        (evalForms {} {} .empty none wrapped).ending ∧
      (evalForms {} {} .empty none wrapped).ending.2 = some (Definition.nameless "defun") := by
  have hbody : ∀ operator ∈ Definition.bodyForms, ({} : Handlers).find? operator = some .body :=
    fun _ => find?_of_mem_bodyForms
  have hs : ∀ form ∈ wrapped, form.sanitize = form := Sexp.sanitize_of_mem rfl
  obtain ⟨-, hending, -⟩ := ending_spliceAll {} hbody .empty wrapped hs
  refine ⟨hbody, hs, rfl, hending, ?_⟩
  rw [ending_evalForms {} .empty none hs]
  decide

end Declaration

end LispDoc
