import LispDoc.Proofs.Evaluation.Program
import LispDoc.Proofs.Table
import Mathlib.Logic.Basic

/-!
# The last writer wins

A program that runs without an error leaves an environment which can be read off its declarations, slot by slot.

* A name is defined in a scope by the program if some declaration defines it there.
* The argument list of a name is the one that the last declaration to give one gave, and likewise its docstring in each
  scope; a property setting counts as giving what it stores.
* There is a symbol for each name that is defined, set or referred to.

Slots that no declaration writes stay as they were. Keywords of variables and faces set none of these properties
(`Declaration.fst_mem_properties`).
-/

namespace LispDoc

namespace Declaration

/-- The names that a declaration defines, with their scopes. -/
def defined : Declaration → List (String × Scope)
  | function name _ _ => [(name, .function)]
  | var name _ _ _ => [(name, .var)]
  | face name _ _ => [(name, .face)]
  | struct name stem _ slots => (name, .struct) :: slots.map fun slot => (stem ++ slot, .function)
  | put .. => []

/-- The value of a constant: a string, a number, `t`, or one of the two spellings of nothing. -/
def constant? : Sexp → Option PropertyValue
  | .string text => some (.string text)
  | .integer value => some (.integer value)
  | .float value => some (.float value)
  | .symbol "t" => some (.bool true)
  | .symbol "nil" => some .empty
  | .list [] => some .empty
  | _ => none

/-- The value that a property setting stores: a reference to a quoted symbol by the name which that symbol has, or a
constant. A setting of anything else has no effect. -/
def stored? (env : Environment) : Sexp → Option PropertyValue
  | .quoted (.symbol referred) => some (.symbol (env.symbolOf referred).name)
  | value => constant? value

/-- The names that a property setting with an effect is about: its subject, and the quoted symbol it refers to. -/
def settled : Declaration → List String
  | put name _ (.quoted (.symbol referred)) => [name, referred]
  | put name _ value => if (constant? value).isSome then [name] else []
  | _ => []

/-- The argument list that a declaration gives to a name. -/
def arglist? (env : Environment) (name : String) : Declaration → Option PropertyValue
  | function n arguments _ => if n = name then some (.list arguments) else none
  | struct _ stem _ slots => if ∃ slot ∈ slots, stem ++ slot = name then some (.list ["cl-x"]) else none
  | put n property value => if n = name ∧ property = "function-arglist" then stored? env value else none
  | _ => none

/-- The docstring that a declaration gives to a name in a scope. -/
def docstring? (env : Environment) (scope : Scope) (name : String) : Declaration → Option PropertyValue
  | function n _ docstring => if n = name ∧ scope = .function then docstring.map .string else none
  | var n _ docstring _ => if n = name ∧ scope = .var then docstring.map .string else none
  | face n docstring _ => if n = name ∧ scope = .face then docstring.map .string else none
  | struct n _ docstring _ => if n = name ∧ scope = .struct then docstring.map .string else none
  | put n property value => if n = name ∧ property = scope.documentation then stored? env value else none

/-! ### The changes of one declaration -/

private theorem ofConstant?_eq (value : Sexp) : PropertyValue.ofConstant? value = constant? value := by
  fun_cases constant? value with
  | case7 _ hstring hinteger hfloat ht hnil hempty =>
    have hprimitive : value.isPrimitive = false := by
      cases value with
      | string text => exact absurd rfl (hstring text)
      | integer n => exact absurd rfl (hinteger n)
      | float x => exact absurd rfl (hfloat x)
      | symbol name =>
        have hname : name ≠ "t" ∧ name ≠ "nil" := ⟨fun h => ht (congrArg _ h), fun h => hnil (congrArg _ h)⟩
        simp [Sexp.isPrimitive, hname]
      | list items =>
        cases items with
        | nil => exact absurd rfl hempty
        | cons => rfl
      | _ => rfl
    exact if_neg (by rw [hprimitive]; exact Bool.false_ne_true)
  | _ => rfl

private theorem stored?_eq (env : Environment) (value : Sexp) :
    stored? env value =
      match value.quotedSymbol? with
      | some referred => some (.symbol (env.symbolOf referred).name)
      | none => PropertyValue.ofConstant? value := by
  fun_cases Sexp.quotedSymbol? value with
  | case1 referred => rfl
  | case2 _ hquoted => rw [stored?.eq_2 env value hquoted, ofConstant?_eq]

private theorem settled_put (name property : String) (value : Sexp) :
    settled (.put name property value) =
      match value.quotedSymbol? with
      | some referred => [name, referred]
      | none => if (PropertyValue.ofConstant? value).isSome then [name] else [] := by
  fun_cases Sexp.quotedSymbol? value with
  | case1 referred => rfl
  | case2 _ hquoted => rw [settled.eq_2 name property value hquoted, ofConstant?_eq]

theorem define_mem_named {name : String} {scope : Scope} {n : String} {s : Scope}
    {entries : List (String × PropertyValue)} :
    .define name scope ∈ named n s entries ↔ (name, scope) = (n, s) := by
  simp [named]

theorem define_mem_writes {d : Declaration} {name : String} {scope : Scope} :
    .define name scope ∈ d.writes ↔ (name, scope) ∈ d.defined := by
  cases d with
  | function n arguments docstring => rw [writes, define_mem_named, defined, List.mem_singleton]
  | var n bufferLocal docstring keywords => rw [writes, define_mem_named, defined, List.mem_singleton]
  | face n docstring keywords => rw [writes, define_mem_named, defined, List.mem_singleton]
  | struct n stem docstring slots =>
    rw [writes, List.mem_append, define_mem_named, defined, List.mem_cons, List.mem_flatMap, List.mem_map]
    simp only [accessor, define_mem_named, eq_comm]
  | put n property value =>
    rw [writes, defined]
    cases value.quotedSymbol? with
    | some referred => simp
    | none => cases PropertyValue.ofConstant? value <;> simp

/-- The last value that entries give to a property. -/
def lastValue? (property : String) (entries : List (String × PropertyValue)) : Option PropertyValue :=
  entries.reverse.findSome? fun e => if e.1 = property then some e.2 else none

@[simp] theorem lastValue?_nil (property : String) : lastValue? property [] = none := rfl

@[simp] theorem lastValue?_cons (property : String) (e : String × PropertyValue) (es : List (String × PropertyValue)) :
    lastValue? property (e :: es) = (lastValue? property es).or (if e.1 = property then some e.2 else none) := by
  simp [lastValue?, List.findSome?_append]

@[simp] theorem lastValue?_append (property : String) (as bs : List (String × PropertyValue)) :
    lastValue? property (as ++ bs) = (lastValue? property bs).or (lastValue? property as) := by
  simp [lastValue?, List.findSome?_append]

@[simp] theorem lastValue?_docstringEntry (property : String) (scope : Scope) (docstring : Option String) :
    lastValue? property (docstringEntry scope docstring) =
      if scope.documentation = property then docstring.map .string else none := by
  cases docstring <;> simp [docstringEntry]

/-- Keywords set three properties and no others. -/
theorem fst_mem_properties {keywords : List Sexp} {e : String × PropertyValue}
    (h : e ∈ (Keywords.properties keywords).entries) :
    e.1 ∈ [Property.safeLocalVariable, Property.riskyLocalVariable, Property.customPackageVersion] := by
  obtain ⟨pair, -, hpair⟩ := List.mem_filterMap.1 (Table.mem_of_mem_ofList h)
  unfold Keywords.property? at hpair
  split at hpair
  · obtain ⟨p, -, rfl⟩ := Option.map_eq_some_iff.1 hpair
    simp
  split at hpair
  · split at hpair
    · cases hpair; simp
    · simp at hpair
  split at hpair
  · obtain ⟨v, -, rfl⟩ := Option.map_eq_some_iff.1 hpair
    simp
  · simp at hpair

theorem lastValue?_keywords (property : String) (keywords : List Sexp)
    (h : property ∉ [Property.safeLocalVariable, Property.riskyLocalVariable, Property.customPackageVersion]) :
    lastValue? property (Keywords.properties keywords).entries = none := by
  rw [lastValue?, List.findSome?_eq_none_iff]
  intro e he
  rw [if_neg]
  intro heq
  exact h (heq ▸ fst_mem_properties (List.mem_reverse.1 he))

variable (env : Environment)

theorem last?_named (name property n : String) (scope : Scope) (entries : List (String × PropertyValue)) :
    Write.last? env name property (named n scope entries) =
      if n = name then lastValue? property entries else none := by
  rw [named, Write.last?_cons, Write.last?, ← List.map_reverse, List.findSome?_map]
  by_cases hn : n = name <;> simp [lastValue?, Function.comp_def, hn, Write.value?]

theorem last?_accessors (name property stem : String) (slots : List String) :
    Write.last? env name property (slots.flatMap (accessor stem)) =
      if property = Property.functionArglist ∧ ∃ slot ∈ slots, stem ++ slot = name then some (.list ["cl-x"])
      else none := by
  induction slots with
  | nil => simp [Write.last?]
  | cons slot slots ih =>
    rw [List.flatMap_cons, Write.last?_append, ih, accessor, last?_named]
    by_cases hp : property = Property.functionArglist
    · by_cases hslot : stem ++ slot = name
      · split <;> simp [hp, hslot]
      · simp [hp, hslot]
    · simp [hp, Ne.symm hp]

private theorem last?_put (name property n p : String) (value : Sexp) :
    Write.last? env name property (writes (.put n p value)) =
      if n = name ∧ p = property then stored? env value else none := by
  rw [writes, stored?_eq]
  cases value.quotedSymbol? with
  | some referred =>
    simp only [Write.last?_cons, Write.value?, Option.or_none]
    exact Option.none_or
  | none => cases PropertyValue.ofConstant? value <;> simp [Write.last?, Write.value?]

/-- What a declaration does to the argument list of a name. -/
theorem last?_arglist (name : String) (d : Declaration) :
    Write.last? env name Property.functionArglist d.writes = d.arglist? env name := by
  have hdoc : ∀ scope : Scope, scope.documentation ≠ Property.functionArglist := by
    intro scope
    cases scope <;> decide
  have hkeywords := fun keywords => lastValue?_keywords Property.functionArglist keywords (by decide)
  cases d with
  | function n arguments docstring => simp [writes, last?_named, arglist?, hdoc]
  | var n bufferLocal docstring keywords =>
    have hlocal : Property.bufferLocal ≠ Property.functionArglist := by decide
    simp [writes, last?_named, arglist?, hkeywords, hlocal, hdoc]
  | face n docstring keywords => simp [writes, last?_named, arglist?, hkeywords, hdoc]
  | struct n stem docstring slots =>
    have hslots : Property.structureSlots ≠ Property.functionArglist := by decide
    simp [writes, Write.last?_append, last?_named, last?_accessors, arglist?, hslots, hdoc]
  | put n property value => exact last?_put env name Property.functionArglist n property value

private theorem documentation_eq_iff {s t : Scope} : s.documentation = t.documentation ↔ t = s := by
  cases s <;> cases t <;> decide

/-- What a declaration does to the docstring of a name in a scope. -/
private theorem last?_docstring (scope : Scope) (name : String) (d : Declaration) :
    Write.last? env name scope.documentation d.writes = d.docstring? env scope name := by
  have hne : ∀ property ∈ [Property.functionArglist, Property.bufferLocal, Property.structureSlots],
      property ≠ scope.documentation := by
    cases scope <;> decide
  have hkeywords := fun keywords => lastValue?_keywords scope.documentation keywords (by
    cases scope <;> decide)
  simp only [List.forall_mem_cons] at hne
  cases d with
  | function n arguments docstring =>
    simp [writes, last?_named, docstring?, documentation_eq_iff, hne.1, ite_and]
  | var n bufferLocal docstring keywords =>
    simp [writes, last?_named, docstring?, documentation_eq_iff, hkeywords, hne.2.1, ite_and]
  | face n docstring keywords =>
    simp [writes, last?_named, docstring?, documentation_eq_iff, hkeywords, ite_and]
  | struct n stem docstring slots =>
    simp [writes, Write.last?_append, last?_named, last?_accessors, docstring?, documentation_eq_iff, hne.2.2.1,
      Ne.symm hne.1, ite_and]
  | put n property value => exact last?_put env name scope.documentation n property value

private theorem exists_mem_flatMap {α β : Type} {xs : List α} {f : α → List β} {p : β → Prop} :
    (∃ b ∈ xs.flatMap f, p b) ↔ ∃ x ∈ xs, ∃ b ∈ f x, p b := by
  simp only [List.mem_flatMap]
  constructor
  · rintro ⟨b, ⟨x, hx, hb⟩, hp⟩
    exact ⟨x, hx, b, hb, hp⟩
  · rintro ⟨x, hx, b, hb, hp⟩
    exact ⟨b, ⟨x, hx, hb⟩, hp⟩

theorem exists_name_named {name n : String} {scope : Scope} {entries : List (String × PropertyValue)} :
    (∃ w ∈ named n scope entries, w.name = name) ↔ n = name := by
  constructor
  · rintro ⟨w, hw, rfl⟩
    rcases List.mem_cons.1 hw with rfl | hw
    · rfl
    · obtain ⟨e, -, rfl⟩ := List.mem_map.1 hw
      rfl
  · rintro rfl
    exact ⟨.define n scope, by simp [named], rfl⟩

/-- The symbols that a declaration changes. -/
private theorem exists_name_writes {d : Declaration} {name : String} :
    (∃ w ∈ d.writes, w.name = name) ↔ (∃ scope, (name, scope) ∈ d.defined) ∨ name ∈ d.settled := by
  cases d with
  | function n arguments docstring => rw [writes, exists_name_named]; simp [defined, settled, eq_comm]
  | var n bufferLocal docstring keywords => rw [writes, exists_name_named]; simp [defined, settled, eq_comm]
  | face n docstring keywords => rw [writes, exists_name_named]; simp [defined, settled, eq_comm]
  | struct n stem docstring slots =>
    simp only [writes, List.mem_append, or_and_right, exists_or, exists_name_named, exists_mem_flatMap, accessor]
    constructor
    · rintro (rfl | ⟨slot, hslot, rfl⟩)
      · exact .inl ⟨.struct, List.mem_cons_self⟩
      · exact .inl ⟨.function, List.mem_cons_of_mem _ (List.mem_map.2 ⟨slot, hslot, rfl⟩)⟩
    · rintro (⟨scope, h⟩ | h)
      · rcases List.mem_cons.1 h with h | h
        · exact .inl (congrArg Prod.fst h).symm
        · obtain ⟨slot, hslot, heq⟩ := List.mem_map.1 h
          exact .inr ⟨slot, hslot, congrArg Prod.fst heq⟩
      · exact absurd h List.not_mem_nil
  | put n property value =>
    rw [writes, defined, settled_put]
    cases value.quotedSymbol? with
    | some referred => simp [Write.name, eq_comm, or_comm]
    | none => cases PropertyValue.ofConstant? value <;> simp [Write.name, eq_comm]

/-! ### Programs -/

private theorem last?_flatMap_writes (name property : String) (ds : List Declaration) :
    Write.last? env name property (ds.flatMap writes) =
      ds.reverse.findSome? fun d => Write.last? env name property d.writes := by
  induction ds with
  | nil => rfl
  | cons d ds ih => simp [Write.last?_append, ih, List.findSome?_append]

/-- After a program that runs without an error, each definition of a name comes from the program if the program makes
it; the argument list of a name and its docstrings are the last ones that the program gives; the symbols are the old
ones, those that are defined and those that settings are about; and the features are the old ones. -/
theorem slots_evalForms (context : Provenance) (forms : List Sexp) (value : Option Sexp)
    (hs : ∀ form ∈ forms, form.sanitize = form)
    (hok : (evalForms {} context env none forms).outcome = .ok value) :
    let after := (evalForms {} context env none forms).env
    (∀ name scope, after.provenance? name scope =
      if ∃ d ∈ ofForms forms, (name, scope) ∈ d.defined then some context else env.provenance? name scope) ∧
    (∀ name, after.property? name "function-arglist" =
      ((ofForms forms).reverse.findSome? (arglist? env name)).or (env.property? name "function-arglist")) ∧
    (∀ name scope, after.property? name scope.documentation =
      ((ofForms forms).reverse.findSome? (docstring? env scope name)).or (env.property? name scope.documentation)) ∧
    (∀ name, (after.lookup name).isSome ↔
      (env.lookup name).isSome ∨ ∃ d ∈ ofForms forms, (∃ scope, (name, scope) ∈ d.defined) ∨ name ∈ d.settled) ∧
    after.features = env.features := by
  intro after
  have hafter : after = env.writeAll context ((ofForms forms).flatMap writes) := env_evalForms context env none hs hok
  rw [hafter]
  refine ⟨fun name scope => ?_, fun name => ?_, fun name scope => ?_, fun name => ?_, ?_⟩
  · rw [Environment.provenance?_writeAll]
    simp only [List.mem_flatMap, define_mem_writes]
  · have hproperty : "function-arglist" = Property.functionArglist := rfl
    rw [hproperty, Environment.property?_writeAll, last?_flatMap_writes]
    simp only [last?_arglist]
  · rw [Environment.property?_writeAll, last?_flatMap_writes]
    simp only [last?_docstring]
  · rw [Environment.isSome_lookup_writeAll, or_comm, exists_mem_flatMap]
    simp only [exists_name_writes]
  · exact Environment.features_writeAll context env _

/-- A function that is defined twice, with its argument list set in between; a variable whose second definition has a
string for a value and none for a docstring, and a face of the same name; and two structures, one of which says what its
slot functions start with. -/
def redefinitions : List Sexp :=
  [.list [.symbol "defun", .symbol "f", .list [.symbol "x"], .string "One."],
    .list [.symbol "eval-and-compile",
      .list [.symbol "put", .quoted (.symbol "f"), .quoted (.symbol "function-arglist"), .integer 3],
      .list [.symbol "eval-when-compile", .list [.symbol "defmacro", .symbol "f", .list [.symbol "y", .symbol "z"]]]],
    .list [.symbol "cl-defstruct", .symbol "p", .string "A point.", .symbol "q"],
    .list [.symbol "put", .quoted (.symbol "f"), .quoted (.symbol "face-documentation"), .quoted (.symbol "g")],
    .list [.symbol "defcustom", .symbol "v", .integer 1, .string "A width.", .symbol ":risky", .symbol "t"],
    .list [.symbol "defvar", .symbol "v", .string "No docstring but a value."],
    .list [.symbol "defface", .symbol "v", .list [], .string "A face."],
    .list [.symbol "cl-defstruct", .list [.symbol "s", .list [.symbol ":conc-name", .symbol "t/"]], .string "A size.",
      .list [.symbol "w", .integer 0]]]

theorem slots_evalForms_redefinitions :
    (∀ form ∈ redefinitions, form.sanitize = form) ∧
    (∃ value, (evalForms {} {} .empty none redefinitions).outcome = .ok value) ∧
    let after := (evalForms {} {} .empty none redefinitions).env
    after.property? "f" "function-arglist" = some (.list ["y", "z"]) ∧
    after.property? "f" "function-documentation" = some (.string "One.") ∧
    after.property? "f" "face-documentation" = some (.symbol "g") ∧
    after.property? "v" "variable-documentation" = some (.string "A width.") ∧
    after.property? "v" "face-documentation" = some (.string "A face.") ∧
    after.property? "p" "structure-documentation" = some (.string "A point.") ∧
    after.property? "s" "structure-documentation" = some (.string "A size.") ∧
    after.property? "p-q" "function-arglist" = some (.list ["cl-x"]) ∧
    after.property? "t/w" "function-arglist" = some (.list ["cl-x"]) ∧
    after.provenance? "p" .struct = some {} ∧ after.provenance? "v" .struct = none ∧ (after.lookup "g").isSome := by
  have hs : ∀ form ∈ redefinitions, form.sanitize = form := Sexp.sanitize_of_mem rfl
  have hput : .put "f" "face-documentation" (.quoted (.symbol "g")) ∈ ofForms redefinitions :=
    List.mem_of_getElem? (i := 4) rfl
  have hnone : (evalForms {} {} .empty none redefinitions).ending.2 = none := by
    rw [ending_evalForms {} .empty none hs]
    decide
  obtain ⟨value, hok⟩ := Step.exists_ok_of_ending hnone
  obtain ⟨hprovenance, harglist, hdocstring, hlookup, -⟩ := slots_evalForms .empty {} redefinitions value hs hok
  refine ⟨hs, ⟨value, hok⟩, ?_, ?_, ?_, ?_, ?_, ?_, ?_, ?_, ?_, ?_, ?_, ?_⟩
  · exact (harglist "f").trans (by decide)
  · exact (hdocstring "f" .function).trans (by decide)
  · exact (hdocstring "f" .face).trans (by decide)
  · exact (hdocstring "v" .var).trans (by decide)
  · exact (hdocstring "v" .face).trans (by decide)
  · exact (hdocstring "p" .struct).trans (by decide)
  · exact (hdocstring "s" .struct).trans (by decide)
  · exact (harglist "p-q").trans (by decide)
  · exact (harglist "t/w").trans (by decide)
  · exact (hprovenance "p" .struct).trans (by decide)
  · exact (hprovenance "v" .struct).trans (by decide)
  · exact (hlookup "g").2 (.inr ⟨_, hput, .inr (by decide)⟩)

end Declaration

end LispDoc
