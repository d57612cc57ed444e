import LispDoc.Interpreter
import LispDoc.Proofs.Evaluation.Write

/-!
# What forms declare

A definition form is a declaration in disguise: taken apart (`Declaration.ofForm?`), it is a name with an argument list,
a docstring, keywords or slots, and it stands for a list of changes (`Declaration.writes`). Neither depends on the
environment. Which operand is which is told by patterns for the operands, apart from how definitions are recorded, and
that definitions agree with them is proved for each part of a form (`Definition.splitDocstring_eq` and others).

A form under the default handlers makes the changes of its declaration in order, up to the first whose name is invalid
(`Declaration.ending_evalForm`). A form that is not well formed makes none.
-/

namespace LispDoc

/-- The property that holds the docstring of a name in a scope. -/
def Scope.documentation : Scope → String
  | function => "function-documentation"
  | var => "variable-documentation"
  | face => "face-documentation"
  | struct => "structure-documentation"

/-- A definition form taken apart. -/
inductive Declaration where
  | function (name : String) (arguments : List String) (docstring : Option String)
  | var (name : String) (bufferLocal : Bool) (docstring : Option String) (keywords : List Sexp)
  | face (name : String) (docstring : Option String) (keywords : List Sexp)
  /-- a structure; the stem is what the names of its slot functions start with -/
  | struct (name stem : String) (docstring : Option String) (slots : List String)
  /-- a property setting with a quoted name and a quoted property -/
  | put (name property : String) (value : Sexp)

namespace Declaration

/-! Operands taken apart, place by place. -/

/-- The text of a string in front. -/
def textInFront? : List Sexp → Option String
  | .string text :: _ => some text
  | _ => none

/-- What comes after a string in front; without one nothing is left out. -/
def afterText : List Sexp → List Sexp
  | .string _ :: rest => rest
  | operands => operands

/-- The printed items of a list in front. -/
def itemsInFront : List Sexp → List String
  | .list items :: _ => items.map Sexp.print
  | _ => []

/-- The name of a structure and its options. -/
def headOf? : Sexp → Option (String × List Sexp)
  | .symbol name => some (name, [])
  | .list (.symbol name :: options) => some (name, options)
  | _ => none

/-- What the names of slot functions start with: the text of the first option that gives one, where `nil` stands for
nothing, or else the name of the structure and a hyphen. -/
def stemOf (name : String) : List Sexp → String
  | [] => name ++ "-"
  | .list (.symbol ":conc-name" :: .symbol text :: _) :: _ => if text = "nil" then "" else text
  | .list (.symbol ":conc-name" :: .string text :: _) :: _ => if text = "nil" then "" else text
  | _ :: options => stemOf name options

/-- The symbols among the operands and the symbols at the head of lists among them, in order. -/
def slotsOf : List Sexp → List String
  | [] => []
  | .symbol slot :: operands => slot :: slotsOf operands
  | .list (.symbol slot :: _) :: operands => slot :: slotsOf operands
  | _ :: operands => slotsOf operands

/-! Operands taken apart, operator by operator; `none` if they are not well formed. -/

def functionOf? : List Sexp → Option Declaration
  | .symbol name :: rest => some (.function name (itemsInFront rest) (textInFront? rest.tail))
  | _ => none

def variableOf? (operator : String) : List Sexp → Option Declaration
  | .symbol name :: rest =>
    some (.var name ("-local".toList.isSuffixOf operator.toList) (textInFront? rest.tail) (afterText rest.tail))
  | _ => none

def faceOf? : List Sexp → Option Declaration
  | .symbol name :: rest => some (.face name (textInFront? rest.tail) (afterText rest.tail))
  | _ => none

def structOf? : List Sexp → Option Declaration
  | spec :: rest =>
    (headOf? spec).map fun head => .struct head.1 (stemOf head.1 head.2) (textInFront? rest) (slotsOf rest)
  | [] => none

def putOf? : List Sexp → Option Declaration
  | .quoted (.symbol name) :: .quoted (.symbol property) :: value :: _ => some (.put name property value)
  | _ => none

/-- The declaration of a form. -/
def ofForm? : Sexp → Option Declaration
  | .list (.symbol operator :: operands) =>
    if operator ∈ ["defun", "defmacro", "defsubst", "cl-defun", "cl-defmacro", "cl-defsubst", "define-inline"] then
      functionOf? operands
    else if operator ∈ ["defvar", "defcustom", "defvar-local", "defconst"] then variableOf? operator operands
    else if operator = "defface" then faceOf? operands
    else if operator = "put" then putOf? operands
    else if operator = "cl-defstruct" then structOf? operands
    else none
  | _ => none

theorem ofForm?_call (operator : String) (operands : List Sexp) :
    ofForm? (.list (.symbol operator :: operands)) =
      if operator ∈ Definition.functionForms then functionOf? operands
      else if operator ∈ Definition.variableForms then variableOf? operator operands
      else if operator = "defface" then faceOf? operands
      else if operator = "put" then putOf? operands
      else if operator = "cl-defstruct" then structOf? operands
      else none := rfl

/-- What is wrong with the place of the name in a definition. -/
def nameFault? (operator : String) : List Sexp → Option LispError
  | [] => some (Definition.nameless operator)
  | .symbol _ :: _ => none
  | other :: _ => some (.invalidSymbolName other.print)

/-- What is wrong with a definition form before anything of it is recorded. -/
def fault? : Sexp → Option LispError
  | .list (.symbol operator :: operands) =>
    if operator ∈ Definition.functionForms ∨ operator ∈ Definition.variableForms ∨ operator = "defface" then
      nameFault? operator operands
    else if operator = "cl-defstruct" then
      match operands with
      | [] => some (Definition.nameless operator)
      | spec :: _ => if (headOf? spec).isSome then none else some (.invalidSymbolName spec.print)
    else none
  | _ => none

theorem fault?_struct (spec : Sexp) (rest : List Sexp) :
    fault? (.list (.symbol "cl-defstruct" :: spec :: rest)) =
      if (headOf? spec).isSome then none else some (.invalidSymbolName spec.print) := rfl

/-- The entry for a docstring. -/
def docstringEntry (scope : Scope) (docstring : Option String) : List (String × PropertyValue) :=
  (docstring.map fun text => (scope.documentation, .string text)).toList

/-- The changes that define a name in a scope and set some of its properties. -/
def named (name : String) (scope : Scope) (entries : List (String × PropertyValue)) : List Write :=
  .define name scope :: entries.map fun e => .set name e.1 e.2

/-- The changes that define the function of a slot. -/
def accessor (stem slot : String) : List Write :=
  named (stem ++ slot) .function [(Property.functionArglist, .list ["cl-x"])]

/-- What a declaration changes, in order. -/
def writes : Declaration → List Write
  | function name arguments docstring =>
    named name .function
      ((Property.functionArglist, .list arguments) :: docstringEntry .function docstring)
  | var name bufferLocal docstring keywords =>
    named name .var (docstringEntry .var docstring ++
      (Property.bufferLocal, .bool bufferLocal) :: (Keywords.properties keywords).entries)
  | face name docstring keywords =>
    named name .face (docstringEntry .face docstring ++ (Keywords.properties keywords).entries)
  | struct name stem docstring slots =>
    named name .struct (docstringEntry .struct docstring ++
      [(Property.structureSlots, .list slots)]) ++ slots.flatMap (accessor stem)
  | put name property value =>
    match value.quotedSymbol? with
    | some referred => [.intern referred, .refer name property referred]
    | none => ((PropertyValue.ofConstant? value).map (Write.set name property)).toList

end Declaration

/-! ### Definitions agree -/

namespace Definition

open Declaration

theorem splitDocstring_eq (operands : List Sexp) :
    splitDocstring operands = (textInFront? operands, afterText operands) := by
  unfold splitDocstring
  split
  · rfl
  · rename_i hstring
    unfold textInFront? afterText
    split
    · exact absurd rfl (hstring _ _)
    · rfl

private theorem arglist_eq (operands : List Sexp) : arglist operands.head? = itemsInFront operands := by
  rcases operands with _ | ⟨_ | _ | _ | _ | _ | _ | _, rest⟩ <;> rfl

/-- A function has its docstring after the argument list. -/
private theorem functionDocstring_eq (operands : List Sexp) :
    operands[1]?.bind Sexp.string? = textInFront? operands.tail := by
  rcases operands with _ | ⟨first, _ | ⟨_ | _ | _ | _ | _ | _ | _, rest⟩⟩ <;> rfl

theorem accessorStem_cons (name : String) (option : Sexp) (options : List Sexp) :
    accessorStem name (option :: options) =
      match concName? option with
      | some text => if text = "nil" then "" else text
      | none => accessorStem name options := by
  rw [accessorStem, List.findSome?_cons]
  cases concName? option with
  | none => rfl
  | some text =>
    by_cases hnil : text = "nil"
    · rw [hnil]
      rfl
    · simp only [if_neg hnil]

/-- An option gives no name if it does not have one of the two forms that do. -/
theorem concName?_eq_none {option : Sexp}
    (hsymbol : ∀ text more, option ≠ .list (.symbol ":conc-name" :: .symbol text :: more))
    (hstring : ∀ text more, option ≠ .list (.symbol ":conc-name" :: .string text :: more)) :
    concName? option = none := by
  unfold concName?
  split
  · rename_i value more
    cases value with
    | symbol text => exact absurd rfl (hsymbol text more)
    | string text => exact absurd rfl (hstring text more)
    | _ => rfl
  · rfl

private theorem accessorStem_eq (name : String) (options : List Sexp) :
    accessorStem name options = stemOf name options := by
  fun_induction stemOf name options with
  | case1 => rfl
  | case2 more options => exact accessorStem_cons ..
  | case3 text more options hnil => exact (accessorStem_cons ..).trans (if_neg hnil)
  | case4 more options => exact accessorStem_cons ..
  | case5 text more options hnil => exact (accessorStem_cons ..).trans (if_neg hnil)
  | case6 option options hsymbol hstring ih =>
    rw [accessorStem_cons, concName?_eq_none hsymbol hstring]
    exact ih

private theorem structHead?_eq (spec : Sexp) :
    structHead? spec = (headOf? spec).map fun head => (head.1, stemOf head.1 head.2) := by
  unfold structHead?
  split
  · rfl
  · rw [accessorStem_eq]
    rfl
  · rename_i hsymbol hlist
    unfold headOf?
    split
    · exact absurd rfl (hsymbol _)
    · exact absurd rfl (hlist _ _)
    · rfl

/-- A docstring is no slot. -/
private theorem filterMap_slotName?_eq (operands : List Sexp) :
    (splitDocstring operands).2.filterMap slotName? = slotsOf operands := by
  have hall : operands.filterMap slotName? = slotsOf operands := by
    fun_induction slotsOf operands with
    | case1 => rfl
    | case2 slot operands ih => rw [← ih]; rfl
    | case3 slot more operands ih => rw [← ih]; rfl
    | case4 operand operands hsymbol hlist ih =>
      have hnone : slotName? operand = none := by
        unfold slotName?
        split
        · exact absurd rfl (hsymbol _)
        · exact absurd rfl (hlist _ _)
        · rfl
      rw [List.filterMap_cons_none hnone, ih]
  unfold splitDocstring
  split
  · exact hall
  · exact hall

end Definition

/-- How a step ends: with an environment, and with an error if there is one. -/
def Step.ending (step : Step) : Environment × Option LispError :=
  (step.env, match step.outcome with | .error error => some error | .ok _ => none)

theorem Step.exists_ok_of_ending {step : Step} (h : step.ending.2 = none) : ∃ value, step.outcome = .ok value := by
  rw [Step.ending] at h
  cases ho : step.outcome with
  | error error => simp [ho] at h
  | ok value => exact ⟨value, rfl⟩

theorem Step.outcome_of_ending {step : Step} {error : LispError} (h : step.ending.2 = some error) :
    step.outcome = .error error := by
  rw [Step.ending] at h
  cases ho : step.outcome with
  | error stop =>
    rw [ho] at h
    rw [Option.some.inj h]
  | ok value => simp [ho] at h

namespace Declaration

variable (context : Provenance)

/-- Does what a form declares. -/
def perform (env : Environment) (form : Sexp) : Environment × Option LispError :=
  match fault? form with
  | some error => (env, some error)
  | none => env.record context (((ofForm? form).map writes).getD [])

/-! ### One form -/

/-- Defining a name and setting its properties is one change of its symbol. -/
theorem writeAll_named (env : Environment) (name : String) (scope : Scope) (entries : List (String × PropertyValue)) :
    env.writeAll context (named name scope entries) =
      env.alter name fun s => entries.foldl (fun s e => s.setProperty e.1 e.2) (s.define scope context) := by
  have hsets : ∀ (entries : List (String × PropertyValue)) (change : Symbol → Symbol),
      (env.alter name change).writeAll context (entries.map fun e => .set name e.1 e.2) =
        env.alter name fun s => entries.foldl (fun s e => s.setProperty e.1 e.2) (change s) := by
    intro entries
    induction entries with
    | nil => intro change; rfl
    | cons e entries ih =>
      intro change
      rw [List.map_cons, Environment.writeAll_cons, Environment.write, Write.name, Environment.alter_alter]
      exact ih _
  exact hsets entries _

/-- A name with its properties in front of other changes: all of it happens or, if the name is invalid, none. -/
private theorem record_named_append (env : Environment) (name : String) (scope : Scope)
    (entries : List (String × PropertyValue)) (ws : List Write) :
    env.record context (named name scope entries ++ ws) =
      if isSymbolName name then
        (env.alter name fun s =>
          entries.foldl (fun s e => s.setProperty e.1 e.2) (s.define scope context)).record context ws
      else (env, some (.invalidSymbolName name)) := by
  split
  · rename_i h
    rw [Environment.record_append_of_valid, writeAll_named]
    intro w hw
    rcases List.mem_cons.1 hw with rfl | hw
    · exact h
    · obtain ⟨e, -, rfl⟩ := List.mem_map.1 hw
      exact h
  · rename_i h
    exact Environment.record_cons_of_invalid context env (w := .define name scope) h _

theorem record_named (env : Environment) (name : String) (scope : Scope) (entries : List (String × PropertyValue)) :
    env.record context (named name scope entries) =
      if isSymbolName name then
        (env.alter name fun s => entries.foldl (fun s e => s.setProperty e.1 e.2) (s.define scope context), none)
      else (env, some (.invalidSymbolName name)) := by
  have h := record_named_append context env name scope entries []
  rwa [List.append_nil] at h

private theorem ending_ofUpdate (env : Environment) (notices : List Notice) (name : String) (change : Symbol → Symbol) :
    (Step.ofUpdate env notices (env.updateForm (.symbol name) change)).ending =
      if isSymbolName name then (env.alter name change, none) else (env, some (.invalidSymbolName name)) := by
  have hupdate : env.updateForm (.symbol name) change = env.update name change := rfl
  rw [hupdate, Environment.update_eq]
  split <;> rfl

private theorem setProperty?_eq (scope : Scope) (s : Symbol) (docstring : Option String) :
    s.setProperty? scope.documentation (docstring.map .string) =
      (docstringEntry scope docstring).foldl (fun s e => s.setProperty e.1 e.2) s := by
  cases docstring <;> rfl

private theorem ending_function (operator : String) (env : Environment) (name : String) (rest : List Sexp) :
    (Definition.function context operator (.symbol name :: rest) env).ending =
      env.record context (writes (.function name (itemsInFront rest) (textInFront? rest.tail))) := by
  have hdoc : ∀ (s : Symbol) docstring, s.setProperty? Property.functionDocumentation _ = _ := setProperty?_eq .function
  rw [Definition.function, writes, record_named, ending_ofUpdate, Definition.arglist_eq,
    Definition.functionDocstring_eq]
  simp only [hdoc, List.foldl_cons]

private theorem ending_var (operator : String) (env : Environment) (name : String) (rest : List Sexp) :
    (Definition.var context operator (.symbol name :: rest) env).ending =
      env.record context
        (writes (.var name ("-local".toList.isSuffixOf operator.toList) (textInFront? rest.tail)
          (afterText rest.tail))) := by
  have hdoc : ∀ (s : Symbol) docstring, s.setProperty? Property.variableDocumentation _ = _ := setProperty?_eq .var
  rw [Definition.var, writes, record_named, Definition.splitDocstring_eq, ending_ofUpdate]
  simp only [hdoc, Symbol.setProperties, List.foldl_append, List.foldl_cons]

private theorem ending_face (operator : String) (env : Environment) (name : String) (rest : List Sexp) :
    (Definition.face context operator (.symbol name :: rest) env).ending =
      env.record context
        (writes (.face name (textInFront? rest.tail) (afterText rest.tail))) := by
  have hdoc : ∀ (s : Symbol) docstring, s.setProperty? Property.faceDocumentation _ = _ := setProperty?_eq .face
  rw [Definition.face, writes, record_named, Definition.splitDocstring_eq, ending_ofUpdate]
  simp only [hdoc, Symbol.setProperties, List.foldl_append]

private theorem ending_accessors (stem : String) (env : Environment) (slots : List String) :
    (Definition.accessors context stem env slots).ending = env.record context (slots.flatMap (accessor stem)) := by
  induction slots generalizing env with
  | nil => rfl
  | cons slot slots ih =>
    rw [Definition.accessors, Environment.update_eq, List.flatMap_cons, accessor, record_named_append]
    by_cases h : isSymbolName (stem ++ slot) = true
    · rw [if_pos h, if_pos h]
      exact ih _
    · rw [if_neg h, if_neg h]
      rfl

/-- The structure is recorded before its slot functions. -/
private theorem ending_struct (operator : String) (env : Environment) (spec : Sexp) (rest : List Sexp)
    {head : String × List Sexp} (hspec : headOf? spec = some head) :
    (Definition.struct context operator (spec :: rest) env).ending =
      env.record context
        (writes (.struct head.1 (stemOf head.1 head.2) (textInFront? rest) (slotsOf rest))) := by
  have hdoc : ∀ (s : Symbol) docstring, s.setProperty? Property.structureDocumentation _ = _ := setProperty?_eq .struct
  have hslots := Definition.filterMap_slotName?_eq rest
  have hsplit := Definition.splitDocstring_eq rest
  simp only [Definition.struct, Definition.structHead?_eq, hspec, Option.map_some, Environment.update_eq, writes,
    record_named_append, hslots]
  by_cases h : isSymbolName head.1 = true
  · rw [if_pos h, if_pos h]
    simp only [ending_accessors, hsplit, hdoc, List.foldl_append, List.foldl_cons, List.foldl_nil]
  · rw [if_neg h, if_neg h]
    rfl

private theorem ending_store (env : Environment) (value : Sexp) {w : Write} {property : String} {stored : PropertyValue}
    (hw : w.change context env = fun s => s.setProperty property stored) :
    (Definition.store env w.name property stored value).ending = env.record context [w] := by
  rw [Definition.store, Environment.update_eq]
  by_cases h : isSymbolName w.name = true
  · rw [if_pos h, Environment.record_cons_of_valid context env h, Environment.write, hw]
    rfl
  · rw [if_neg h, Environment.record_cons_of_invalid context env h]
    rfl

/-- A quoted symbol is interned before the property is set. -/
private theorem ending_put (operator : String) (env : Environment) (name property : String) (value : Sexp)
    (rest : List Sexp) :
    (Definition.put context operator (.quoted (.symbol name) :: .quoted (.symbol property) :: value :: rest)
      env).ending = env.record context (writes (.put name property value)) := by
  simp only [Definition.put, Sexp.quotedSymbol?.eq_1, writes]
  cases hq : value.quotedSymbol? with
  | some referred =>
    simp only [Environment.intern, Environment.update_eq]
    by_cases h : isSymbolName referred = true
    · rw [if_pos h, Environment.record_cons_of_valid context env (w := .intern referred) h]
      exact ending_store context _ value (w := .refer name property referred) rfl
    · rw [if_neg h, Environment.record_cons_of_invalid context env (w := .intern referred) h]
      rfl
  | none =>
    cases PropertyValue.ofConstant? value with
    | some constant => exact ending_store context env value (w := .set name property constant) rfl
    | none => rfl

private theorem perform_of_fault {env : Environment} {form : Sexp} {error : LispError} (h : fault? form = some error) :
    perform context env form = (env, some error) := by
  rw [perform, h]

private theorem perform_of_declaration {env : Environment} {form : Sexp} {d : Declaration} (hf : fault? form = none)
    (h : ofForm? form = some d) : perform context env form = env.record context d.writes := by
  rw [perform, hf, h]
  rfl

private theorem perform_of_nothing {env : Environment} {form : Sexp} (hf : fault? form = none)
    (h : ofForm? form = none) : perform context env form = (env, none) := by
  rw [perform, hf, h]
  rfl

/-- Definitions that start with a name differ in what they declare of it, and not in how they go wrong. -/
private theorem ending_of_named {recorder : Definition.Recorder} {operator : String} {operands : List Sexp}
    {env : Environment} {declaration : String → List Sexp → Declaration}
    (hfault : fault? (.list (.symbol operator :: operands)) = nameFault? operator operands)
    (hform : ∀ name rest, ofForm? (.list (.symbol operator :: .symbol name :: rest)) = some (declaration name rest))
    (hnil : (recorder context operator [] env).ending = (env, some (Definition.nameless operator)))
    (hother : ∀ head rest, head.symbol? = none →
      (recorder context operator (head :: rest) env).ending = (env, some (.invalidSymbolName head.print)))
    (hname : ∀ name rest, (recorder context operator (.symbol name :: rest) env).ending =
      env.record context (declaration name rest).writes) :
    (recorder context operator operands env).ending = perform context env (.list (.symbol operator :: operands)) := by
  rcases operands with _ | ⟨head, rest⟩
  · rw [perform_of_fault context hfault, hnil]
  · cases head with
    | symbol name => rw [perform_of_declaration context hfault (hform name rest), hname]
    | _ => rw [perform_of_fault context hfault, hother _ _ rfl]

private theorem ending_functionForm (env : Environment) {operator : String} (h : operator ∈ Definition.functionForms)
    (operands : List Sexp) :
    (Definition.function context operator operands env).ending =
      perform context env (.list (.symbol operator :: operands)) := by
  refine ending_of_named context (by simp only [fault?, h, true_or, if_true])
    (fun name rest => by simp only [ofForm?_call, if_pos h, functionOf?]) rfl ?_ (ending_function context operator env)
  intro head rest hhead
  cases head with
  | symbol _ => simp [Sexp.symbol?] at hhead
  | _ => rfl

private theorem ending_variableForm (env : Environment) {operator : String} (hf : operator ∉ Definition.functionForms)
    (h : operator ∈ Definition.variableForms) (operands : List Sexp) :
    (Definition.var context operator operands env).ending =
      perform context env (.list (.symbol operator :: operands)) := by
  refine ending_of_named context (by simp only [fault?, h, true_or, or_true, if_true])
    (fun name rest => by simp only [ofForm?_call, if_neg hf, if_pos h, variableOf?]) rfl ?_
    (ending_var context operator env)
  intro head rest hhead
  cases head with
  | symbol _ => simp [Sexp.symbol?] at hhead
  | _ => rfl

private theorem ending_faceForm (env : Environment) (operands : List Sexp) :
    (Definition.face context "defface" operands env).ending =
      perform context env (.list (.symbol "defface" :: operands)) := by
  refine ending_of_named context rfl (fun name rest => rfl) rfl ?_ (ending_face context "defface" env)
  intro head rest hhead
  cases head with
  | symbol _ => simp [Sexp.symbol?] at hhead
  | _ => rfl

private theorem ending_structForm (env : Environment) (operands : List Sexp) :
    (Definition.struct context "cl-defstruct" operands env).ending =
      perform context env (.list (.symbol "cl-defstruct" :: operands)) := by
  rcases operands with _ | ⟨spec, rest⟩
  · rfl
  · have hfault := fault?_struct spec rest
    cases hspec : headOf? spec with
    | some head =>
      rw [hspec] at hfault
      rw [perform_of_declaration context hfault (congrArg (Option.map _) hspec)]
      exact ending_struct context "cl-defstruct" env spec rest hspec
    | none =>
      rw [hspec] at hfault
      rw [perform_of_fault context hfault]
      simp only [Definition.struct, Definition.structHead?_eq, hspec]
      rfl

private theorem eq_quoted_of_quotedSymbol? {form : Sexp} {name : String} (h : form.quotedSymbol? = some name) :
    form = .quoted (.symbol name) := by
  unfold Sexp.quotedSymbol? at h
  split at h
  · rw [Option.some.inj h]
  · simp at h

private theorem ending_putForm (env : Environment) (operands : List Sexp) :
    (Definition.put context "put" operands env).ending =
      perform context env (.list (.symbol "put" :: operands)) := by
  have hfault : fault? (.list (.symbol "put" :: operands)) = none := rfl
  by_cases hshape : ∃ name property value rest,
      operands = .quoted (.symbol name) :: .quoted (.symbol property) :: value :: rest
  · obtain ⟨name, property, value, rest, rfl⟩ := hshape
    rw [perform_of_declaration context hfault rfl, ending_put]
  · have hform : ofForm? (.list (.symbol "put" :: operands)) = none := by
      have hput : ofForm? (.list (.symbol "put" :: operands)) = putOf? operands := rfl
      rw [hput]
      unfold putOf?
      split
      · exact absurd ⟨_, _, _, _, rfl⟩ hshape
      · rfl
    rw [perform_of_nothing context hfault hform]
    unfold Definition.put
    split
    · split
      · rename_i hname hproperty
        exact absurd ⟨_, _, _, _, by rw [eq_quoted_of_quotedSymbol? hname, eq_quoted_of_quotedSymbol? hproperty]⟩ hshape
      · rfl
    · rfl

theorem evalForm_call (handlers : Handlers) (env : Environment) {form : Sexp} {operator : String} {operands : List Sexp}
    (hs : form.sanitize = .list (.symbol operator :: operands)) :
    evalForm handlers context env form =
      match handlers.find? operator with
      | some (.record recorder) => recorder context operator operands env
      | some .body => evalForms handlers context env none operands
      | none => .skip env [.unsupported operator] := by
  rw [evalForm]
  split
  · rename_i h
    rw [hs] at h
    cases h
    rfl
  · rename_i hhead h
    rw [hs] at h
    cases h
    exact absurd rfl (hhead _)
  · rename_i hcall hlist
    exact absurd hs (hcall _ _)

/-- Nothing happens for a form that is no call of an operator. -/
private theorem ending_evalForm_of_no_call (handlers : Handlers) (env : Environment) {form : Sexp}
    (h : ∀ operator operands, form.sanitize ≠ .list (.symbol operator :: operands)) :
    (evalForm handlers context env form).ending = (env, none) := by
  rw [evalForm]
  split
  · rename_i hcall
    exact absurd hcall (h _ _)
  · rfl
  · rfl

/-- A form that is no wrapper once it is sanitized does what it declares. -/
theorem ending_evalForm (env : Environment) {form call : Sexp} (hs : form.sanitize = call)
    (hleaf : ∀ operator operands, call = .list (.symbol operator :: operands) → operator ∉ Definition.bodyForms) :
    (evalForm {} context env form).ending = perform context env call := by
  by_cases hcall : ∃ operator operands, call = .list (.symbol operator :: operands)
  · obtain ⟨operator, operands, rfl⟩ := hcall
    have hfind : ({} : Handlers).find? operator = Handler.default? operator := rfl
    have hbody := hleaf operator operands rfl
    rw [evalForm_call context _ env hs, hfind, Handler.default?]
    by_cases h1 : operator ∈ Definition.functionForms
    · simp only [if_pos h1]
      exact ending_functionForm context env h1 operands
    by_cases h2 : operator ∈ Definition.variableForms
    · simp only [if_neg h1, if_pos h2]
      exact ending_variableForm context env h1 h2 operands
    simp only [if_neg h1, if_neg h2, if_neg hbody]
    by_cases h4 : operator = "defface"
    · subst h4; exact ending_faceForm context env operands
    by_cases h5 : operator = "put"
    · subst h5; exact ending_putForm context env operands
    by_cases h6 : operator = "cl-defstruct"
    · subst h6; exact ending_structForm context env operands
    · simp only [if_neg h4, if_neg h5, if_neg h6]
      rw [perform_of_nothing context (by simp [fault?, h1, h2, h4, h6]) (by simp [ofForm?_call, h1, h2, h4, h5, h6])]
      rfl
  · have hno : ∀ operator operands, call ≠ .list (.symbol operator :: operands) :=
      fun operator operands h => hcall ⟨operator, operands, h⟩
    rw [ending_evalForm_of_no_call context _ env (by rwa [hs]), perform_of_nothing]
    · unfold fault?
      split
      · exact absurd rfl (hno _ _)
      · rfl
    · unfold ofForm?
      split
      · exact absurd rfl (hno _ _)
      · rfl

end Declaration

end LispDoc
