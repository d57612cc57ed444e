import LispDoc.Proofs.Evaluation.LastWriter
import Mathlib.Data.List.TakeWhile

/-!
# What forms do to an environment

Which changes forms make, and with which error they stop, can be told from the forms alone (`Declaration.effectsAll`,
`Declaration.firstError?`): neither the environment nor the context plays a part (`Declaration.ending_eq`).

The changes are sound in a sense that does not depend on where they are made either (`Write.Sound`): only valid names
are written; whoever defines a name in a scope also sets the property that definitions in this scope always have; a
symbol that is referred to is itself among the changed ones; and the only property that is set to a symbol without more
ado is the safety predicate of a variable or a face. Soundness survives concatenation, so that one look at each sort of
declaration is enough (`Declaration.sound_effectsAll`).
-/

namespace LispDoc

/-- The property that whatever is defined in a scope always has. -/
def Scope.required? : Scope → Option String
  | function => some Property.functionArglist
  | var => some Property.bufferLocal
  | face => none
  | struct => some Property.structureSlots

namespace Write

def isValid (w : Write) : Bool := isSymbolName w.name

/-- Changes that belong together; see above. -/
structure Sound (ws : List Write) : Prop where
  valid : ∀ w ∈ ws, w.isValid = true
  required : ∀ {name scope}, .define name scope ∈ ws →
    ∀ property ∈ scope.required?, ∃ value, .set name property value ∈ ws
  interned : ∀ {name property referred}, .refer name property referred ∈ ws → ∃ w ∈ ws, w.name = referred
  constant : ∀ {name property referred}, .set name property (.symbol referred) ∈ ws →
    property = Property.safeLocalVariable

theorem Sound.nil : Sound [] := ⟨by simp, by simp, by simp, by simp⟩

theorem Sound.append {as bs : List Write} (ha : Sound as) (hb : Sound bs) : Sound (as ++ bs) where
  valid := by
    intro w hw
    rcases List.mem_append.1 hw with hw | hw
    · exact ha.valid w hw
    · exact hb.valid w hw
  required := by
    intro name scope hw property hp
    rcases List.mem_append.1 hw with hw | hw
    · obtain ⟨value, hvalue⟩ := ha.required hw property hp
      exact ⟨value, List.mem_append_left bs hvalue⟩
    · obtain ⟨value, hvalue⟩ := hb.required hw property hp
      exact ⟨value, List.mem_append_right as hvalue⟩
  interned := by
    intro name property referred hw
    rcases List.mem_append.1 hw with hw | hw
    · obtain ⟨w, hw, hname⟩ := ha.interned hw
      exact ⟨w, List.mem_append_left bs hw, hname⟩
    · obtain ⟨w, hw, hname⟩ := hb.interned hw
      exact ⟨w, List.mem_append_right as hw, hname⟩
  constant := by
    intro name property referred hw
    rcases List.mem_append.1 hw with hw | hw
    · exact ha.constant hw
    · exact hb.constant hw

end Write

namespace Environment

variable (context : Provenance)

/-- Changes are made as long as their names are valid. -/
private theorem record_eq (env : Environment) (ws : List Write) :
    env.record context ws =
      (env.writeAll context (ws.takeWhile Write.isValid),
        (ws.find? fun w => !w.isValid).map fun w => .invalidSymbolName w.name) := by
  induction ws generalizing env with
  | nil => rfl
  | cons w ws ih =>
    by_cases h : isSymbolName w.name = true
    · have hw : w.isValid = true := h
      rw [record_cons_of_valid context env h, ih, List.takeWhile_cons_of_pos hw, writeAll_cons, List.find?_cons_of_neg]
      simp [hw]
    · have hw : w.isValid = false := by simpa [Write.isValid] using h
      rw [record_cons_of_invalid context env h, List.takeWhile_cons_of_neg (by simp [hw]),
        List.find?_cons_of_pos (by simp [hw])]
      rfl

end Environment

namespace Declaration

/-! ### The changes that are made -/

/-- The changes that a form makes. -/
def effects (form : Sexp) : List Write :=
  if (fault? form).isSome then [] else (((ofForm? form).map writes).getD []).takeWhile Write.isValid

/-- The error that a form stops with. -/
def error? (form : Sexp) : Option LispError :=
  (fault? form).or
    (((((ofForm? form).map writes).getD []).find? fun w => !w.isValid).map fun w => .invalidSymbolName w.name)

/-- The changes that forms make, up to the first that fails and with those that it still makes. -/
def effectsAll : List Sexp → List Write
  | [] => []
  | form :: forms => effects form ++ if (error? form).isSome then [] else effectsAll forms

/-- The error of the first form that fails. -/
def firstError? (forms : List Sexp) : Option LispError := forms.findSome? error?

variable (context : Provenance)

theorem perform_eq (env : Environment) (form : Sexp) :
    perform context env form = (env.writeAll context (effects form), error? form) := by
  rw [perform, effects, error?]
  cases fault? form with
  | some error => rfl
  | none => exact Environment.record_eq context env _

/-- A form that does not fail makes all changes of its declaration. -/
theorem effects_of_error?_eq_none {form : Sexp} (h : error? form = none) :
    effects form = ((ofForm? form).map writes).getD [] := by
  obtain ⟨hfault, hinvalid⟩ := Option.or_eq_none_iff.1 h
  rw [Option.map_eq_none_iff, List.find?_eq_none] at hinvalid
  rw [effects, hfault, Option.isSome_none, if_neg Bool.false_ne_true, List.takeWhile_eq_self_iff]
  intro w hw
  simpa using hinvalid w hw

private theorem performAll_eq (env : Environment) (forms : List Sexp) :
    performAll context env forms = (env.writeAll context (effectsAll forms), firstError? forms) := by
  induction forms generalizing env with
  | nil => rfl
  | cons form forms ih =>
    rw [performAll, perform_eq, effectsAll, firstError?, List.findSome?_cons]
    cases h : error? form with
    | some error => simp
    | none =>
      simp only [ih, Option.isSome_none, Bool.false_eq_true, if_false, Environment.writeAll_append]
      rfl

/-- Handling forms makes changes and ends with an error that the forms alone tell. -/
theorem ending_eq (env : Environment) (last : Option Sexp) (forms : List Sexp) :
    (evalForms {} context env last forms).ending =
      (env.writeAll context (effectsAll (Sexp.callsAll forms)), firstError? (Sexp.callsAll forms)) := by
  rw [ending_evalForms_calls, performAll_eq]

theorem env_evalForms_eq (env : Environment) (last : Option Sexp) (forms : List Sexp) :
    (evalForms {} context env last forms).env = env.writeAll context (effectsAll (Sexp.callsAll forms)) :=
  congrArg Prod.fst (ending_eq context env last forms)

theorem env_evalForm_eq (env : Environment) (form : Sexp) :
    (evalForm {} context env form).env = env.writeAll context (effectsAll form.calls) := by
  -- a form alone ends like a program of one form
  obtain ⟨value, hcons⟩ := ending_evalForms_cons context {} env none form []
  have hending : (evalForm {} context env form).ending = (evalForms {} context env none [form]).ending := by
    rw [hcons]
    rcases (evalForm {} context env form).ending with ⟨after, _ | error⟩
    · show (after, none) = (evalForms {} context after value []).ending
      rw [evalForms]
      rfl
    · rfl
  have hcalls : Sexp.callsAll [form] = form.calls := by simp [Sexp.callsAll]
  have henv := congrArg Prod.fst hending
  rw [ending_eq, hcalls] at henv
  exact henv

/-! ### Soundness -/

private theorem sound_named {name : String} {scope : Scope} {entries : List (String × PropertyValue)}
    (hname : isSymbolName name = true)
    (hrequired : ∀ property ∈ scope.required?, ∃ value, (property, value) ∈ entries)
    (hconstant : ∀ property referred, (property, .symbol referred) ∈ entries →
      property = Property.safeLocalVariable) : Write.Sound (named name scope entries) where
  valid := by
    intro w hw
    have hn : name = w.name := exists_name_named.1 ⟨w, hw, rfl⟩
    rw [Write.isValid, ← hn]
    exact hname
  required := by
    intro n s hdefine property hp
    obtain ⟨rfl, rfl⟩ := Prod.mk.inj (define_mem_named.1 hdefine)
    obtain ⟨value, hvalue⟩ := hrequired property hp
    exact ⟨value, List.mem_cons_of_mem _ (List.mem_map.2 ⟨_, hvalue, rfl⟩)⟩
  interned := by
    intro n property referred hw
    simp [named] at hw
  constant := by
    intro n property referred hw
    simp only [named, List.mem_cons, reduceCtorEq, false_or, List.mem_map, Write.set.injEq] at hw
    obtain ⟨⟨p, v⟩, he, -, rfl, rfl⟩ := hw
    exact hconstant _ _ he

/-- A name with its properties is written as a whole or not at all. -/
theorem takeWhile_named_append (name : String) (scope : Scope) (entries : List (String × PropertyValue))
    (ws : List Write) :
    (named name scope entries ++ ws).takeWhile Write.isValid =
      if isSymbolName name then named name scope entries ++ ws.takeWhile Write.isValid else [] := by
  split
  · rename_i h
    refine List.takeWhile_append_of_pos fun w hw => ?_
    have hn : name = w.name := exists_name_named.1 ⟨w, hw, rfl⟩
    rw [Write.isValid, ← hn]
    exact h
  · rename_i h
    have hdefine : ¬ (Write.define name scope).isValid = true := h
    rw [named, List.cons_append, List.takeWhile_cons_of_neg hdefine]

private theorem sound_takeWhile_named_append {name : String} {scope : Scope} {entries : List (String × PropertyValue)}
    {ws : List Write} (hrequired : ∀ property ∈ scope.required?, ∃ value, (property, value) ∈ entries)
    (hconstant : ∀ property referred, (property, .symbol referred) ∈ entries → property = Property.safeLocalVariable)
    (hws : Write.Sound (ws.takeWhile Write.isValid)) :
    Write.Sound ((named name scope entries ++ ws).takeWhile Write.isValid) := by
  rw [takeWhile_named_append]
  split
  · rename_i h
    exact (sound_named h hrequired hconstant).append hws
  · exact .nil

private theorem sound_takeWhile_named {name : String} {scope : Scope} {entries : List (String × PropertyValue)}
    (hrequired : ∀ property ∈ scope.required?, ∃ value, (property, value) ∈ entries)
    (hconstant : ∀ property referred, (property, .symbol referred) ∈ entries →
      property = Property.safeLocalVariable) : Write.Sound ((named name scope entries).takeWhile Write.isValid) := by
  have h : Write.Sound ((named name scope entries ++ []).takeWhile Write.isValid) :=
    sound_takeWhile_named_append hrequired hconstant .nil
  rwa [List.append_nil] at h

private theorem sound_takeWhile_accessors (stem : String) (slots : List String) :
    Write.Sound ((slots.flatMap (accessor stem)).takeWhile Write.isValid) := by
  induction slots with
  | nil => exact .nil
  | cons slot slots ih =>
    rw [List.flatMap_cons, accessor]
    refine sound_takeWhile_named_append ?_ (by simp) ih
    intro property hp
    obtain rfl : Property.functionArglist = property := by simpa [Scope.required?] using hp
    exact ⟨.list ["cl-x"], by simp⟩

/-- Of all that keywords set, only the safety predicate is a symbol. -/
private theorem eq_safe_of_mem_properties {keywords : List Sexp} {property referred : String}
    (h : (property, .symbol referred) ∈ (Keywords.properties keywords).entries) :
    property = Property.safeLocalVariable := by
  obtain ⟨pair, -, hpair⟩ := List.mem_filterMap.1 (Table.mem_of_mem_ofList h)
  unfold Keywords.property? at hpair
  split at hpair
  · obtain ⟨p, -, he⟩ := Option.map_eq_some_iff.1 hpair
    exact (congrArg Prod.fst he).symm
  split at hpair
  · split at hpair <;> simp at hpair
  split at hpair
  · obtain ⟨v, -, he⟩ := Option.map_eq_some_iff.1 hpair
    simp at he
  · simp at hpair

private theorem ofConstant?_ne_symbol {value : Sexp} {referred : String} :
    PropertyValue.ofConstant? value ≠ some (.symbol referred) := by
  unfold PropertyValue.ofConstant?
  split
  · split <;> simp
  · simp

/-- A quoted symbol is interned before it is referred to, and a constant is no symbol. -/
private theorem sound_takeWhile_put (name property : String) (value : Sexp) :
    Write.Sound ((writes (.put name property value)).takeWhile Write.isValid) := by
  rw [writes]
  cases value.quotedSymbol? with
  | some referred =>
    by_cases hr : (Write.intern referred).isValid = true
    · rw [List.takeWhile_cons_of_pos hr]
      by_cases hn : (Write.refer name property referred).isValid = true
      · rw [List.takeWhile_cons_of_pos hn, List.takeWhile_nil]
        refine ⟨by simp [hr, hn], by simp, fun h => ⟨.intern referred, by simp, ?_⟩, by simp⟩
        have := List.mem_of_ne_of_mem Write.noConfusion h
        simp only [List.mem_singleton, Write.refer.injEq] at this
        exact this.2.2.symm
      · rw [List.takeWhile_cons_of_neg hn]
        exact ⟨by simp [hr], by simp, by simp, by simp⟩
    · rw [List.takeWhile_cons_of_neg hr]
      exact .nil
  | none =>
    cases hc : PropertyValue.ofConstant? value with
    | none => exact .nil
    | some constant =>
      have hset : (Option.map (Write.set name property) (some constant)).toList = [.set name property constant] := rfl
      rw [hset]
      by_cases hn : (Write.set name property constant).isValid = true
      · rw [List.takeWhile_cons_of_pos hn, List.takeWhile_nil]
        refine ⟨by simp [hn], by simp, by simp, fun h => ?_⟩
        obtain ⟨-, -, rfl⟩ := Write.set.inj (List.mem_singleton.1 h)
        exact absurd hc ofConstant?_ne_symbol
      · rw [List.takeWhile_cons_of_neg hn]
        exact .nil

private theorem sound_takeWhile_writes (d : Declaration) : Write.Sound (d.writes.takeWhile Write.isValid) := by
  have hdoc : ∀ {scope docstring property referred}, (property, .symbol referred) ∉ docstringEntry scope docstring := by
    intro scope docstring property referred
    cases docstring <;> simp [docstringEntry]
  cases d with
  | function name arguments docstring =>
    refine sound_takeWhile_named (fun property hp => ?_) fun property referred h => ?_
    · obtain rfl : Property.functionArglist = property := by simpa [Scope.required?] using hp
      exact ⟨_, List.mem_cons_self⟩
    · simp [hdoc] at h
  | var name bufferLocal docstring keywords =>
    refine sound_takeWhile_named (fun property hp => ?_) fun property referred h => ?_
    · obtain rfl : Property.bufferLocal = property := by simpa [Scope.required?] using hp
      exact ⟨.bool bufferLocal, by simp⟩
    · simp only [List.mem_append, List.mem_cons, hdoc, Prod.mk.injEq, reduceCtorEq, and_false, false_or] at h
      exact eq_safe_of_mem_properties h
  | face name docstring keywords =>
    refine sound_takeWhile_named (by simp [Scope.required?]) fun property referred h => ?_
    simp only [List.mem_append, hdoc, false_or] at h
    exact eq_safe_of_mem_properties h
  | struct name stem docstring slots =>
    refine sound_takeWhile_named_append (fun property hp => ?_) (fun property referred h => ?_)
      (sound_takeWhile_accessors stem slots)
    · obtain rfl : Property.structureSlots = property := by simpa [Scope.required?] using hp
      exact ⟨.list slots, by simp⟩
    · simp [hdoc] at h
  | put name property value => exact sound_takeWhile_put name property value

theorem sound_effects (form : Sexp) : Write.Sound (effects form) := by
  unfold effects
  split
  · exact .nil
  · cases ofForm? form with
    | none => exact .nil
    | some d => exact sound_takeWhile_writes d

theorem sound_effectsAll (forms : List Sexp) : Write.Sound (effectsAll forms) := by
  induction forms with
  | nil => exact .nil
  | cons form forms ih =>
    rw [effectsAll]
    refine (sound_effects form).append ?_
    split
    · exact .nil
    · exact ih

end Declaration

end LispDoc
