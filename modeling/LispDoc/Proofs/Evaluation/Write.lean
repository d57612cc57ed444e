import LispDoc.Environment

/-!
# Changes of an environment

Whatever a definition records comes down to a few changes of the symbol table, each of one symbol (`Write`). An
environment is looked at slot by slot: the provenance of a name in a scope, the value of a property of a name, whether
there is a symbol at all.

* One change touches the slot it names and no other (`Environment.provenance?_write`, `Environment.property?_write`,
  `Environment.isSome_lookup_write`).
* After a sequence of changes every slot holds what the last change of it left there, and what it held before if there
  is none (`Environment.provenance?_writeAll`, `Environment.property?_writeAll`, `Environment.isSome_lookup_writeAll`).

Only valid names are written: `Environment.record` stops at the first change of a symbol whose name is invalid.
-/

namespace LispDoc

/-- A change of the symbol with a name, which is made on first use. -/
inductive Write where
  /-- no more than that -/
  | intern (name : String)
  | define (name : String) (scope : Scope)
  | set (name property : String) (value : PropertyValue)
  /-- the property refers to another symbol, by the name which that symbol has -/
  | refer (name property referred : String)
  deriving DecidableEq

namespace Write

/-- The name of the symbol that is changed. -/
def name : Write → String
  | intern name => name
  | define name _ => name
  | set name _ _ => name
  | refer name _ _ => name

/-- What happens to the symbol, in the context of a file and a feature. -/
def change (context : Provenance) (env : Environment) : Write → Symbol → Symbol
  | intern _, s => s
  | define _ scope, s => s.define scope context
  | set _ property value, s => s.setProperty property value
  | refer _ property referred, s => s.setProperty property (.symbol (env.symbolOf referred).name)

/-- The value that a change gives to a property of a name. -/
def value? (env : Environment) (name property : String) : Write → Option PropertyValue
  | set n p value => if n = name ∧ p = property then some value else none
  | refer n p referred => if n = name ∧ p = property then some (.symbol (env.symbolOf referred).name) else none
  | _ => none

/-- The last value that changes give to a property of a name. -/
def last? (env : Environment) (name property : String) (ws : List Write) : Option PropertyValue :=
  ws.reverse.findSome? (value? env name property)

theorem last?_cons (env : Environment) (name property : String) (w : Write) (ws : List Write) :
    last? env name property (w :: ws) = (last? env name property ws).or (w.value? env name property) := by
  simp [last?, List.findSome?_append]

theorem last?_append (env : Environment) (name property : String) (as bs : List Write) :
    last? env name property (as ++ bs) = (last? env name property bs).or (last? env name property as) := by
  simp [last?, List.findSome?_append]

@[simp] theorem name_change (context : Provenance) (env : Environment) (w : Write) (s : Symbol) :
    (w.change context env s).name = s.name := by
  cases w <;> rfl

end Write

namespace Environment

/-! ### Slots -/

/-- The provenance of a name in a scope. -/
def provenance? (env : Environment) (name : String) (scope : Scope) : Option Provenance :=
  (env.lookup name).bind (·.provenance? scope)

/-- The value of a property of a name. -/
def property? (env : Environment) (name property : String) : Option PropertyValue :=
  (env.lookup name).bind (·.property? property)

/-- A symbol that is not there yet has no definitions, like a new one. -/
theorem provenance?_eq (env : Environment) (name : String) (scope : Scope) :
    env.provenance? name scope = (env.symbolOf name).provenance? scope := by
  unfold provenance? symbolOf
  cases env.lookup name with
  | none => cases scope <;> rfl
  | some s => rfl

theorem property?_eq (env : Environment) (name property : String) :
    env.property? name property = (env.symbolOf name).property? property := by
  unfold property? symbolOf
  cases env.lookup name <;> rfl

/-! ### Changing one symbol -/

/-- Changes the symbol with a name, whatever the name. -/
def alter (env : Environment) (name : String) (change : Symbol → Symbol) : Environment :=
  { env with symbols := env.symbols.insert name (change (env.symbolOf name)) }

theorem update_eq (env : Environment) (name : String) (change : Symbol → Symbol) :
    env.update name change =
      if isSymbolName name then .ok (env.alter name change) else .error (.invalidSymbolName name) := rfl

theorem lookup_alter (env : Environment) (name : String) (change : Symbol → Symbol) (n : String) :
    (env.alter name change).lookup n = if name = n then some (change (env.symbolOf name)) else env.lookup n :=
  Table.get?_insert _ _ _ _

private theorem symbolOf_alter (env : Environment) (name : String) (change : Symbol → Symbol) (n : String) :
    (env.alter name change).symbolOf n = if name = n then change (env.symbolOf n) else env.symbolOf n := by
  rw [symbolOf, lookup_alter]
  split
  · rename_i h; rw [h]; rfl
  · rfl

/-- Environments with the same symbols and the same features are equal. -/
theorem ext_lookup {a b : Environment} (hs : ∀ name, a.lookup name = b.lookup name) (hf : a.features = b.features) :
    a = b := by
  obtain ⟨as, af⟩ := a
  obtain ⟨bs, bf⟩ := b
  have : as = bs := Table.ext_get? hs
  subst this
  cases hf
  rfl

/-- Two changes of one symbol are one change. -/
theorem alter_alter (env : Environment) (name : String) (f g : Symbol → Symbol) :
    (env.alter name f).alter name g = env.alter name fun s => g (f s) := by
  refine ext_lookup (fun n => ?_) rfl
  rw [lookup_alter, lookup_alter, lookup_alter, symbolOf_alter, if_pos rfl]
  split <;> rfl

/-! ### One change -/

/-- Makes a change, in the context of a file and a feature. -/
def write (context : Provenance) (env : Environment) (w : Write) : Environment :=
  env.alter w.name (w.change context env)

variable (context : Provenance)

/-- Symbols keep their names. -/
@[simp] theorem name_symbolOf_write (env : Environment) (w : Write) (n : String) :
    ((env.write context w).symbolOf n).name = (env.symbolOf n).name := by
  rw [write, symbolOf_alter]
  split <;> simp

private theorem value?_write (env : Environment) (w v : Write) (name property : String) :
    v.value? (env.write context w) name property = v.value? env name property := by
  cases v <;> simp [Write.value?]

theorem provenance?_write (env : Environment) (w : Write) (name : String) (scope : Scope) :
    (env.write context w).provenance? name scope =
      if w = .define name scope then some context else env.provenance? name scope := by
  rw [provenance?_eq, provenance?_eq, write, symbolOf_alter]
  by_cases hn : w.name = name
  · rw [if_pos hn]
    cases w with
    | define n s =>
      have hn : n = name := hn
      simp [Write.change, Symbol.provenance?, Symbol.define, hn]
    | _ => rw [if_neg Write.noConfusion]; rfl
  · rw [if_neg hn, if_neg fun h => hn (congrArg Write.name h)]

theorem property?_write (env : Environment) (w : Write) (name property : String) :
    (env.write context w).property? name property =
      (w.value? env name property).or (env.property? name property) := by
  rw [property?_eq, property?_eq, write, symbolOf_alter]
  by_cases hn : w.name = name
  · rw [if_pos hn]
    cases w with
    | intern _ => rfl
    | define _ _ => rfl
    | set n p v =>
      have hn : n = name := hn
      by_cases hp : p = property <;> simp [Write.change, Write.value?, Symbol.property?, Symbol.setProperty, hn, hp]
    | refer n p r =>
      have hn : n = name := hn
      by_cases hp : p = property <;> simp [Write.change, Write.value?, Symbol.property?, Symbol.setProperty, hn, hp]
  · have hnone : w.value? env name property = none := by
      cases w <;> simp_all [Write.value?, Write.name]
    rw [if_neg hn, hnone, Option.none_or]

theorem isSome_lookup_write (env : Environment) (w : Write) (name : String) :
    ((env.write context w).lookup name).isSome ↔ w.name = name ∨ (env.lookup name).isSome := by
  rw [write, lookup_alter]
  by_cases h : w.name = name <;> simp [h]

/-! ### Sequences of changes -/

/-- Makes changes one after the other. -/
def writeAll (env : Environment) (ws : List Write) : Environment := ws.foldl (write context) env

@[simp] theorem writeAll_nil (env : Environment) : env.writeAll context [] = env := rfl

@[simp] theorem writeAll_cons (env : Environment) (w : Write) (ws : List Write) :
    env.writeAll context (w :: ws) = (env.write context w).writeAll context ws := rfl

theorem writeAll_append (env : Environment) (as bs : List Write) :
    env.writeAll context (as ++ bs) = (env.writeAll context as).writeAll context bs := List.foldl_append

theorem features_writeAll (env : Environment) (ws : List Write) :
    (env.writeAll context ws).features = env.features := by
  induction ws generalizing env with
  | nil => rfl
  | cons w ws ih => rw [writeAll_cons, ih]; rfl

theorem name_symbolOf_writeAll (env : Environment) (ws : List Write) (name : String) :
    ((env.writeAll context ws).symbolOf name).name = (env.symbolOf name).name := by
  induction ws generalizing env with
  | nil => rfl
  | cons w ws ih => rw [writeAll_cons, ih, name_symbolOf_write]

theorem provenance?_writeAll (env : Environment) (ws : List Write) (name : String) (scope : Scope) :
    (env.writeAll context ws).provenance? name scope =
      if .define name scope ∈ ws then some context else env.provenance? name scope := by
  induction ws generalizing env with
  | nil => simp
  | cons w ws ih =>
    rw [writeAll_cons, ih, provenance?_write]
    by_cases hw : w = .define name scope
    · simp [hw]
    · simp [hw, Ne.symm hw]

theorem property?_writeAll (env : Environment) (ws : List Write) (name property : String) :
    (env.writeAll context ws).property? name property =
      (Write.last? env name property ws).or (env.property? name property) := by
  induction ws generalizing env with
  | nil => rfl
  | cons w ws ih =>
    have hvalues : Write.value? (env.write context w) name property = Write.value? env name property :=
      funext fun v => value?_write context env w v name property
    rw [writeAll_cons, ih, property?_write, Write.last?_cons, Write.last?, hvalues, ← Write.last?, Option.or_assoc]

theorem isSome_lookup_writeAll (env : Environment) (ws : List Write) (name : String) :
    ((env.writeAll context ws).lookup name).isSome ↔ (∃ w ∈ ws, w.name = name) ∨ (env.lookup name).isSome := by
  induction ws generalizing env with
  | nil => simp
  | cons w ws ih =>
    rw [writeAll_cons, ih, isSome_lookup_write]
    simp only [List.mem_cons, exists_eq_or_imp]
    exact or_left_comm.trans or_assoc.symm

/-! ### Changes up to an invalid name -/

/-- Makes changes one after the other, up to the first whose name is invalid. -/
def record (env : Environment) : List Write → Environment × Option LispError
  | [] => (env, none)
  | w :: ws =>
    if isSymbolName w.name then (env.write context w).record ws else (env, some (.invalidSymbolName w.name))

theorem record_cons_of_valid (env : Environment) {w : Write} (h : isSymbolName w.name = true) (ws : List Write) :
    env.record context (w :: ws) = (env.write context w).record context ws := by
  rw [record, if_pos h]

theorem record_cons_of_invalid (env : Environment) {w : Write} (h : ¬ isSymbolName w.name = true) (ws : List Write) :
    env.record context (w :: ws) = (env, some (.invalidSymbolName w.name)) := by
  rw [record, if_neg h]

theorem record_append_of_valid (env : Environment) {as : List Write} (h : ∀ w ∈ as, isSymbolName w.name = true)
    (bs : List Write) : env.record context (as ++ bs) = (env.writeAll context as).record context bs := by
  induction as generalizing env with
  | nil => rfl
  | cons w as ih =>
    rw [List.cons_append, record_cons_of_valid context env (h w (by simp)), ih _ fun v hv => h v (by simp [hv])]
    rfl

/-- Without an error all changes have been made. -/
theorem record_fst {env : Environment} {ws : List Write} (h : (env.record context ws).2 = none) :
    (env.record context ws).1 = env.writeAll context ws := by
  induction ws generalizing env with
  | nil => rfl
  | cons w ws ih =>
    rw [record] at h ⊢
    split at h
    · rename_i hw
      rw [if_pos hw, ih h]
      rfl
    · simp at h

end Environment

end LispDoc
