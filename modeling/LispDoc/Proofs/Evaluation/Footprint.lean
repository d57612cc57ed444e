import LispDoc.Proofs.Evaluation.Replay

/-!
# Which slots forms write

Forms write the slots of their footprint and no others: from some environment handling them changes what the slot holds
if and only if the slot is in the footprint (`Declaration.mem_footprint_iff`). The footprint is told by the forms alone.

Two lists of forms that write no slot in common can be handled in either order (`evalForms_comm`). Symbols that one of
them makes or refers to may well be those of the other: making a symbol is no write of a slot, and whoever comes second
finds what it would have made.
-/

namespace LispDoc

/-- A place in the symbol table: where the definition of a name in a scope came from, or a property of a name. -/
inductive Slot where
  | provenance (name : String) (scope : Scope)
  | property (name property : String)
  deriving DecidableEq

/-- What a slot holds. -/
def Environment.content? (env : Environment) : Slot → Option (Provenance ⊕ PropertyValue)
  | .provenance name scope => (env.provenance? name scope).map .inl
  | .property name property => (env.property? name property).map .inr

/-- Forms write a slot if there is an environment from which handling them changes what it holds. -/
def Slot.WrittenBy (context : Provenance) (forms : List Sexp) (slot : Slot) : Prop :=
  ∃ env : Environment, (evalForms {} context env none forms).env.content? slot ≠ env.content? slot

namespace Write

def slot? : Write → Option Slot
  | intern _ => none
  | define name scope => some (.provenance name scope)
  | set name property _ => some (.property name property)
  | refer name property _ => some (.property name property)

private theorem provenance_mem_slots {ws : List Write} {name : String} {scope : Scope} :
    .provenance name scope ∈ ws.filterMap slot? ↔ .define name scope ∈ ws := by
  rw [List.mem_filterMap]
  constructor
  · rintro ⟨w, hw, hslot⟩
    cases w with
    | define n s =>
      cases hslot
      exact hw
    | _ => cases hslot
  · intro hw
    exact ⟨_, hw, rfl⟩

private theorem isSome_value? {w : Write} {env : Environment} {name property : String} :
    (w.value? env name property).isSome = true ↔ w.slot? = some (.property name property) := by
  cases w with
  | intern n => simp [value?, slot?]
  | define n s => simp [value?, slot?]
  | set n p v => by_cases h : n = name ∧ p = property <;> simp [value?, slot?, h]
  | refer n p r => by_cases h : n = name ∧ p = property <;> simp [value?, slot?, h]

private theorem property_mem_slots {ws : List Write} {name property : String} (env : Environment) :
    .property name property ∈ ws.filterMap slot? ↔ (last? env name property ws).isSome = true := by
  rw [List.mem_filterMap, last?, List.findSome?_isSome_iff]
  simp only [List.mem_reverse, isSome_value?]

private theorem last?_of_notMem_slots {ws : List Write} {name property : String} (env : Environment)
    (h : .property name property ∉ ws.filterMap slot?) : last? env name property ws = none := by
  rw [property_mem_slots env] at h
  exact Option.not_isSome_iff_eq_none.1 h

end Write

namespace Environment

private theorem content?_writeAll_of_notMem {context : Provenance} {env : Environment} {ws : List Write} {slot : Slot}
    (h : slot ∉ ws.filterMap Write.slot?) : (env.writeAll context ws).content? slot = env.content? slot := by
  cases slot with
  | provenance name scope =>
    rw [Write.provenance_mem_slots] at h
    rw [content?, content?, provenance?_writeAll, if_neg h]
  | property name property =>
    rw [content?, content?, property?_writeAll, Write.last?_of_notMem_slots env h, Option.none_or]

/-- From nothing, every slot that is written comes to hold something. -/
private theorem content?_writeAll_empty (context : Provenance) {ws : List Write} {slot : Slot}
    (h : slot ∈ ws.filterMap Write.slot?) : ((empty.writeAll context ws).content? slot).isSome = true := by
  cases slot with
  | provenance name scope =>
    rw [Write.provenance_mem_slots] at h
    rw [content?, provenance?_writeAll, if_pos h]
    rfl
  | property name property =>
    rw [Write.property_mem_slots empty] at h
    rw [content?, property?_writeAll, Option.isSome_map, Option.isSome_or, h, Bool.true_or]

/-- Changes of different slots can be made in either order, each in a context of its own. -/
private theorem writeAll_comm (ca cb : Provenance) (env : Environment) {as bs : List Write}
    (h : ∀ slot ∈ as.filterMap Write.slot?, slot ∉ bs.filterMap Write.slot?) :
    (env.writeAll ca as).writeAll cb bs = (env.writeAll cb bs).writeAll ca as := by
  refine ext_slots ?_ ?_ ?_ ?_ ?_
  · intro name
    rw [name_symbolOf_writeAll, name_symbolOf_writeAll, name_symbolOf_writeAll, name_symbolOf_writeAll]
  · intro name
    rw [isSome_lookup_writeAll, isSome_lookup_writeAll, isSome_lookup_writeAll, isSome_lookup_writeAll]
    exact or_left_comm
  · intro name scope
    rw [provenance?_writeAll, provenance?_writeAll, provenance?_writeAll, provenance?_writeAll]
    by_cases ha : Write.define name scope ∈ as
    · have hb : Write.define name scope ∉ bs := by
        intro hb
        exact h _ (Write.provenance_mem_slots.2 ha) (Write.provenance_mem_slots.2 hb)
      rw [if_neg hb, if_pos ha, if_pos ha]
    · rw [if_neg ha, if_neg ha]
  · intro name property
    rw [property?_writeAll, last?_writeAll, property?_writeAll, property?_writeAll, last?_writeAll, property?_writeAll]
    by_cases ha : .property name property ∈ as.filterMap Write.slot?
    · rw [Write.last?_of_notMem_slots env (h _ ha), Option.none_or, Option.none_or]
    · rw [Write.last?_of_notMem_slots env ha, Option.none_or, Option.none_or]
  · rw [features_writeAll, features_writeAll, features_writeAll, features_writeAll]

end Environment

namespace Declaration

/-- The slots of the changes that forms make. -/
def footprint (forms : List Sexp) : List Slot := (effectsAll (Sexp.callsAll forms)).filterMap Write.slot?

theorem mem_footprint_iff (context : Provenance) {forms : List Sexp} {slot : Slot} :
    slot ∈ footprint forms ↔ slot.WrittenBy context forms := by
  constructor
  · intro h
    refine ⟨.empty, ?_⟩
    have hempty : Environment.empty.content? slot = none := by cases slot <;> rfl
    have hsome := Environment.content?_writeAll_empty context h
    rw [env_evalForms_eq, hempty]
    exact Option.isSome_iff_ne_none.1 hsome
  · rintro ⟨env, hchanged⟩
    by_contra hslot
    rw [env_evalForms_eq] at hchanged
    exact hchanged (Environment.content?_writeAll_of_notMem hslot)

end Declaration

/-- Two lists of forms that write no slot in common can be handled in either order, each in its context: the
environments at the end are equal, and each list gives the value or the error that it gives by itself. -/
theorem evalForms_comm (env : Environment) (ca cb : Provenance) (as bs : List Sexp)
    (h : ∀ slot : Slot, ¬ (slot.WrittenBy ca as ∧ slot.WrittenBy cb bs)) :
    let a := evalForms {} ca env none as
    let b := evalForms {} cb env none bs
    (evalForms {} cb a.env none bs).env = (evalForms {} ca b.env none as).env ∧
      (evalForms {} cb a.env none bs).outcome = b.outcome ∧ (evalForms {} ca b.env none as).outcome = a.outcome := by
  intro a b
  have hdisjoint : ∀ slot ∈ Declaration.footprint as, slot ∉ Declaration.footprint bs := by
    intro slot ha hb
    exact h slot ⟨(Declaration.mem_footprint_iff ca).1 ha, (Declaration.mem_footprint_iff cb).1 hb⟩
  refine ⟨?_, outcome_evalForms cb cb a.env env none bs, outcome_evalForms ca ca b.env env none as⟩
  simp only [a, b, Declaration.env_evalForms_eq]
  exact Environment.writeAll_comm ca cb env hdisjoint

/-- A function that refers to another symbol, and a structure. -/
def lampFunctions : List Sexp :=
  [.list [.symbol "defun", .symbol "lamp", .list [.symbol "room"], .string "Light."],
    .list [.symbol "put", .quoted (.symbol "lamp"), .quoted (.symbol "kind"), .quoted (.symbol "switch")],
    .list [.symbol "cl-defstruct", .symbol "bulb", .symbol "watts"]]

/-- A variable with the name of the function, and a property of the symbol it refers to. -/
def lampVariables : List Sexp :=
  [.list [.symbol "defvar", .symbol "lamp", .integer 1, .string "Lamp.", .symbol ":risky", .symbol "t"],
    .list [.symbol "put", .quoted (.symbol "switch"), .quoted (.symbol "kind"), .integer 2]]

theorem evalForms_comm_lamp :
    let functions := evalForms {} { file := some "a.el" } .empty none lampFunctions
    let globals := evalForms {} { file := some "b.el" } .empty none lampVariables
    (∃ value, functions.outcome = .ok value) ∧ (∃ value, globals.outcome = .ok value) ∧
    (∀ slot : Slot, ¬ (slot.WrittenBy { file := some "a.el" } lampFunctions ∧
      slot.WrittenBy { file := some "b.el" } lampVariables)) ∧
    (evalForms {} { file := some "b.el" } functions.env none lampVariables).env =
      (evalForms {} { file := some "a.el" } globals.env none lampFunctions).env := by
  intro functions globals
  have ha : ∀ form ∈ lampFunctions, form.sanitize = form := Sexp.sanitize_of_mem rfl
  have hb : ∀ form ∈ lampVariables, form.sanitize = form := Sexp.sanitize_of_mem rfl
  have hfootprints : ∀ slot ∈ Declaration.footprint lampFunctions, slot ∉ Declaration.footprint lampVariables := by
    unfold Declaration.footprint
    rw [Sexp.callsAll_of_sanitized ha, Sexp.callsAll_of_sanitized hb]
    decide
  have hdisjoint : ∀ slot : Slot, ¬ (slot.WrittenBy { file := some "a.el" } lampFunctions ∧
      slot.WrittenBy { file := some "b.el" } lampVariables) := by
    rintro slot ⟨hfunctions, hglobals⟩
    rw [← Declaration.mem_footprint_iff] at hfunctions hglobals
    exact hfootprints slot hfunctions hglobals
  have hfunctions : functions.ending.2 = none := by
    rw [Declaration.ending_evalForms _ _ none ha]
    decide
  have hglobals : globals.ending.2 = none := by
    rw [Declaration.ending_evalForms _ _ none hb]
    decide
  exact ⟨Step.exists_ok_of_ending hfunctions, Step.exists_ok_of_ending hglobals, hdisjoint,
    (evalForms_comm .empty _ _ lampFunctions lampVariables hdisjoint).1⟩

end LispDoc
