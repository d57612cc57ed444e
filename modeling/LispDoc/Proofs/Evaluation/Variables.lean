import LispDoc.Proofs.Evaluation.Effects

/-!
# The tail of a variable definition

After the name and the value of a variable come a docstring, if there is one, and keywords with their values, two by two
(`Definition.Tail`). A keyword means a property if its value has the right form (`Keywords.Means`), and the last one
that does wins (`Keywords.Settles`). So a keyword with a value of the wrong form does not take back what an earlier one
has said.

A variable definition records this and nothing else (`Declaration.slots_of_variable`): all other properties and
definitions of the name stay as they are, and so do all other symbols.
-/

namespace LispDoc

/-! ### The shape of forms -/

namespace Sexp

variable {form inner car cdr : Sexp}

theorem string?_eq_some_iff {text : String} : form.string? = some text ↔ form = string text := by
  cases form <;> simp [string?]

theorem unquote?_eq_some_iff : form.unquote? = some inner ↔ form = quoted inner := by
  cases form <;> simp [unquote?]

theorem cons?_eq_some_iff : form.cons? = some (car, cdr) ↔ form = list [car, symbol ".", cdr] := by
  unfold cons?
  split
  · simp
  · rename_i hpair
    constructor
    · intro h
      cases h
    · exact fun h => absurd h (hpair car cdr)

private theorem isTruthy_iff : form.isTruthy = true ↔ form ≠ symbol "nil" ∧ form ≠ list [] := by
  cases form <;> simp [isTruthy]

end Sexp

/-! ### Keywords -/

namespace Keywords

/-- What a keyword with a value says about a property. -/
inductive Means : String → Sexp → String → PropertyValue → Prop
  | safe (predicate : String) :
      Means ":safe" (.quoted (.symbol predicate)) Property.safeLocalVariable (.symbol predicate)
  | risky {value : Sexp} (nil : value ≠ .symbol "nil") (empty : value ≠ .list []) :
      Means ":risky" value Property.riskyLocalVariable (.bool true)
  | packageVersion (package version : String) :
      Means ":package-version" (.quoted (.list [.symbol package, .symbol ".", .string version]))
        Property.customPackageVersion (.version package version)

/-- The entry at a place says something about a property; entries are two items long. -/
def SaysAt (items : List Sexp) (i : Nat) (property : String) (v : PropertyValue) : Prop :=
  ∃ key value, items[2 * i]? = some (.symbol key) ∧ items[2 * i + 1]? = some value ∧ Means key value property v

/-- What becomes of the value of a property: it is what the last entry says that says something about it, and stays as
it was if there is none. -/
inductive Settles (items : List Sexp) (property : String) (before : Option PropertyValue) :
    Option PropertyValue → Prop
  | last {i : Nat} {v : PropertyValue} (given : SaysAt items i property v)
      (silent : ∀ j, i < j → ∀ w, ¬ SaysAt items j property w) : Settles items property before (some v)
  | kept (silent : ∀ i v, ¬ SaysAt items i property v) : Settles items property before before

theorem packageVersion?_eq_some_iff {form : Sexp} {package version : String} :
    packageVersion? form = some (package, version) ↔
      form = .quoted (.list [.symbol package, .symbol ".", .string version]) := by
  constructor
  · intro h
    simp only [packageVersion?, Option.bind_eq_bind, Option.bind_eq_some_iff, Option.pure_def, Option.some.injEq,
      Prod.mk.injEq] at h
    obtain ⟨inner, hinner, ⟨car, cdr⟩, hcons, p, hp, v, hv, rfl, rfl⟩ := h
    obtain rfl : car = .symbol p := Sexp.symbol?_eq_some_iff.1 hp
    obtain rfl : cdr = .string v := Sexp.string?_eq_some_iff.1 hv
    rw [Sexp.unquote?_eq_some_iff.1 hinner, Sexp.cons?_eq_some_iff.1 hcons]
  · rintro rfl
    rfl

theorem property?_eq_some_iff {key property : String} {value : Sexp} {v : PropertyValue} :
    property? key value = some (property, v) ↔ Means key value property v := by
  constructor
  · intro h
    unfold property? at h
    split at h
    · rename_i hkey
      obtain ⟨predicate, hpredicate, heq⟩ := Option.map_eq_some_iff.1 h
      obtain ⟨rfl, rfl⟩ := Prod.mk.inj heq
      rw [hkey, Sexp.quotedSymbol?_eq_some_iff.1 hpredicate]
      exact .safe predicate
    split at h
    · rename_i hkey
      split at h
      · rename_i htruthy
        obtain ⟨rfl, rfl⟩ := Prod.mk.inj (Option.some.inj h)
        obtain ⟨hnil, hempty⟩ := Sexp.isTruthy_iff.1 htruthy
        rw [hkey]
        exact .risky hnil hempty
      · cases h
    split at h
    · rename_i hkey
      obtain ⟨⟨package, version⟩, hversion, heq⟩ := Option.map_eq_some_iff.1 h
      obtain ⟨rfl, rfl⟩ := Prod.mk.inj heq
      rw [hkey, packageVersion?_eq_some_iff.1 hversion]
      exact .packageVersion package version
    · cases h
  · rintro (predicate | ⟨hnil, hempty⟩ | ⟨package, version⟩)
    · rfl
    · simp [property?, Sexp.isTruthy_iff.2 ⟨hnil, hempty⟩]
    · rfl

/-- The property that an entry gives, if its key is a symbol. -/
def entryProperty? (entry : Sexp × Sexp) : Option (String × PropertyValue) :=
  entry.1.symbol?.bind fun key => property? key entry.2

private theorem filterMap_pairs (items : List Sexp) :
    (pairs items).filterMap (fun p => property? p.1 p.2) = (entries items).filterMap entryProperty? := by
  have hentry : (fun e : Sexp × Sexp => (e.1.symbol?.map (·, e.2)).bind fun p => property? p.1 p.2) =
      entryProperty? := by
    funext e
    unfold entryProperty?
    cases e.1.symbol? <;> rfl
  rw [pairs, List.filterMap_filterMap, hentry]

variable {items : List Sexp} {key value : Sexp} {property : String}

private theorem saysAt_zero {v : PropertyValue} :
    SaysAt (key :: value :: items) 0 property v ↔ entryProperty? (key, value) = some (property, v) := by
  rw [entryProperty?, Option.bind_eq_some_iff]
  constructor
  · rintro ⟨name, form, hkey, hvalue, hmeans⟩
    obtain rfl := Option.some.inj hkey
    obtain rfl := Option.some.inj hvalue
    exact ⟨name, rfl, property?_eq_some_iff.2 hmeans⟩
  · rintro ⟨name, hname, hproperty⟩
    obtain rfl : key = .symbol name := Sexp.symbol?_eq_some_iff.1 hname
    exact ⟨name, value, rfl, rfl, property?_eq_some_iff.1 hproperty⟩

private theorem saysAt_succ {i : Nat} {v : PropertyValue} :
    SaysAt (key :: value :: items) (i + 1) property v ↔ SaysAt items i property v := by
  have hkey : (key :: value :: items)[2 * (i + 1)]? = items[2 * i]? := by
    rw [show 2 * (i + 1) = 2 * i + 1 + 1 by omega, List.getElem?_cons_succ, List.getElem?_cons_succ]
  have hvalue : (key :: value :: items)[2 * (i + 1) + 1]? = items[2 * i + 1]? := by
    rw [show 2 * (i + 1) + 1 = 2 * i + 1 + 1 + 1 by omega, List.getElem?_cons_succ, List.getElem?_cons_succ]
  unfold SaysAt
  rw [hkey, hvalue]

/-- A first entry that says nothing can be left out. -/
theorem Settles.skip {before after : Option PropertyValue} (hsilent : ∀ v, ¬ SaysAt (key :: value :: items) 0 property v)
    (h : Settles items property before after) : Settles (key :: value :: items) property before after := by
  cases h with
  | @last i v given silent =>
    refine .last (i := i + 1) (saysAt_succ.2 given) fun j hj w hw => ?_
    obtain ⟨k, rfl⟩ : ∃ k, j = k + 1 := ⟨j - 1, by omega⟩
    exact silent k (by omega) w (saysAt_succ.1 hw)
  | kept silent =>
    refine .kept fun i v hv => ?_
    cases i with
    | zero => exact hsilent v hv
    | succ i => exact silent i v (saysAt_succ.1 hv)

/-- What the first entry says counts as the value before the others. -/
theorem Settles.say {before after : Option PropertyValue} {v : PropertyValue}
    (hgiven : SaysAt (key :: value :: items) 0 property v) (h : Settles items property (some v) after) :
    Settles (key :: value :: items) property before after := by
  cases h with
  | @last i w given silent =>
    refine .last (i := i + 1) (saysAt_succ.2 given) fun j hj u hu => ?_
    obtain ⟨k, rfl⟩ : ∃ k, j = k + 1 := ⟨j - 1, by omega⟩
    exact silent k (by omega) u (saysAt_succ.1 hu)
  | kept silent =>
    refine .last (i := 0) hgiven fun j hj w hw => ?_
    obtain ⟨k, rfl⟩ : ∃ k, j = k + 1 := ⟨j - 1, by omega⟩
    exact silent k w (saysAt_succ.1 hw)

/-- Entries settle a property in favour of the last value that they give to it. -/
private theorem settles_lastValue? (property : String) (items : List Sexp) (before : Option PropertyValue) :
    Settles items property before
      ((Declaration.lastValue? property ((entries items).filterMap entryProperty?)).or before) := by
  induction items using entries.induct generalizing before with
  | case1 key value rest ih =>
    rw [entries]
    cases hentry : entryProperty? (key, value) with
    | none =>
      rw [List.filterMap_cons_none hentry]
      refine .skip (fun v hv => ?_) (ih before)
      rw [saysAt_zero, hentry] at hv
      cases hv
    | some entry =>
      rw [List.filterMap_cons_some hentry, Declaration.lastValue?_cons, Option.or_assoc]
      by_cases hown : entry.1 = property
      · rw [if_pos hown]
        refine .say (v := entry.2) (saysAt_zero.2 ?_) (ih _)
        rw [hentry, ← hown]
      · rw [if_neg hown, Option.none_or]
        refine .skip (fun v hv => hown ?_) (ih before)
        rw [saysAt_zero, hentry] at hv
        exact congrArg Prod.fst (Option.some.inj hv)
  | case2 items hshort =>
    have hnone : entries items = [] := by
      unfold entries
      split
      · exact absurd rfl (hshort _ _ _)
      · rfl
    rw [hnone]
    refine .kept fun i v hv => ?_
    obtain ⟨name, value, -, hvalue, -⟩ := hv
    match items, hshort, hvalue with
    | [], _, hvalue => simp at hvalue
    | [_], _, hvalue => simp at hvalue
    | key :: value :: rest, hshort, _ => exact hshort _ _ _ rfl

theorem SaysAt.unique {i : Nat} {v w : PropertyValue} (hv : SaysAt items i property v) (hw : SaysAt items i property w) :
    v = w := by
  obtain ⟨key, value, hkey, hvalue, hv⟩ := hv
  obtain ⟨key', value', hkey', hvalue', hw⟩ := hw
  rw [hkey] at hkey'
  rw [hvalue] at hvalue'
  cases hkey'
  cases hvalue'
  have hsame := property?_eq_some_iff.2 hv
  rw [property?_eq_some_iff.2 hw] at hsame
  exact (congrArg Prod.snd (Option.some.inj hsame)).symm

/-- What becomes of a property is determined by the entries and by its value before. -/
theorem Settles.unique {before a b : Option PropertyValue} (ha : Settles items property before a)
    (hb : Settles items property before b) : a = b := by
  cases ha with
  | @last i v hv hlast =>
    cases hb with
    | @last j w hw hlast' =>
      obtain hij | rfl | hji := Nat.lt_trichotomy i j
      · exact absurd hw (hlast j hij w)
      · rw [hv.unique hw]
      · exact absurd hv (hlast' i hji v)
    | kept hsilent => exact absurd hv (hsilent i v)
  | kept hsilent =>
    cases hb with
    | @last j w hw _ => exact absurd hw (hsilent j w)
    | kept _ => rfl

end Keywords

namespace Declaration

/-- What a table answers, in terms of the entries it was made from. -/
private theorem get?_ofList (property : String) (es : List (String × PropertyValue)) :
    (Table.ofList es).get? property = lastValue? property es := by
  have hfold : ∀ (es : List (String × PropertyValue)) (t : Table PropertyValue),
      (es.foldl (fun t e => t.insert e.1 e.2) t).get? property = (lastValue? property es).or (t.get? property) := by
    intro es
    induction es with
    | nil => exact fun t => rfl
    | cons e es ih =>
      intro t
      rw [List.foldl_cons, ih, Table.get?_insert, lastValue?_cons, Option.or_assoc]
      by_cases he : e.1 = property <;> simp [he]
  rw [Table.ofList, hfold, Table.get?_empty, Option.or_none]

/-- The entries of the table that keywords give settle its properties. -/
private theorem settles_keywords (property : String) (keywords : List Sexp) (before : Option PropertyValue) :
    Keywords.Settles keywords property before
      ((lastValue? property (Keywords.properties keywords).entries).or before) := by
  have hentries : lastValue? property (Keywords.properties keywords).entries =
      lastValue? property ((Keywords.entries keywords).filterMap Keywords.entryProperty?) := by
    rw [← get?_ofList, Table.ofList_entries, Keywords.properties, get?_ofList, Keywords.filterMap_pairs]
  rw [hentries]
  exact Keywords.settles_lastValue? property keywords before

end Declaration

/-! ### Variable definitions -/

/-- What follows the value of a variable: a docstring or none, and keywords. -/
inductive Definition.Tail : List Sexp → Option String → List Sexp → Prop
  | documented (text : String) (keywords : List Sexp) : Tail (.string text :: keywords) (some text) keywords
  | plain {keywords : List Sexp} (head : ∀ text, keywords.head? ≠ some (.string text)) : Tail keywords none keywords

theorem Definition.tail_afterText (rest : List Sexp) :
    Tail rest (Declaration.textInFront? rest) (Declaration.afterText rest) := by
  fun_cases Declaration.textInFront? rest with
  | case1 text keywords => exact .documented text keywords
  | case2 _ hstring =>
    rw [Declaration.afterText.eq_2 _ hstring]
    refine .plain fun text hhead => ?_
    obtain ⟨more, hrest⟩ := List.head?_eq_some_iff.1 hhead
    exact hstring _ _ hrest

/-- The environments differ in nothing but one definition and some properties of one name. -/
structure Environment.SameBut (before after : Environment) (name : String) (scope : Scope)
    (properties : List String) : Prop where
  name_eq : (after.symbolOf name).name = (before.symbolOf name).name
  provenance : ∀ s, s ≠ scope → after.provenance? name s = before.provenance? name s
  property : ∀ p, p ∉ properties → after.property? name p = before.property? name p
  others : ∀ n, n ≠ name → after.lookup n = before.lookup n
  features : after.features = before.features

namespace Declaration

variable (context : Provenance) (env : Environment)

/-- Defining a name in a scope and setting properties of it changes nothing else. -/
private theorem sameBut_writeAll_named (name : String) (scope : Scope) (entries : List (String × PropertyValue)) :
    env.SameBut (env.writeAll context (named name scope entries)) name scope (entries.map (·.1)) where
  name_eq := Environment.name_symbolOf_writeAll context env _ name
  provenance s hs := by
    rw [Environment.provenance?_writeAll, if_neg]
    rw [define_mem_named]
    exact fun h => hs (congrArg Prod.snd h)
  property p hp := by
    have hnone : lastValue? p entries = none := by
      rw [lastValue?, List.findSome?_eq_none_iff]
      intro e he
      rw [if_neg]
      exact fun heq => hp (List.mem_map.2 ⟨e, List.mem_reverse.1 he, heq⟩)
    rw [Environment.property?_writeAll, last?_named, if_pos rfl, hnone, Option.none_or]
  others n hn := by
    rw [writeAll_named, Environment.lookup_alter, if_neg (Ne.symm hn)]
  features := Environment.features_writeAll context env _

private theorem notMem_of_variableForm {operator : String} (h : operator ∈ Definition.variableForms) :
    operator ∉ Definition.functionForms ∧ operator ∉ Definition.bodyForms := by
  simp only [Definition.variableForms, List.mem_cons, List.not_mem_nil, or_false] at h
  rcases h with rfl | rfl | rfl | rfl <;> decide

/-- A variable definition with a valid name makes all its changes. -/
private theorem ending_of_variableForm {operator name : String} (hoperator : operator ∈ Definition.variableForms)
    (hname : isSymbolName name = true) {value : Sexp} {rest : List Sexp}
    (hs : (Sexp.list (.symbol operator :: .symbol name :: value :: rest)).sanitize =
      .list (.symbol operator :: .symbol name :: value :: rest)) :
    ∃ docstring keywords, Definition.Tail rest docstring keywords ∧
      (evalForm {} context env (.list (.symbol operator :: .symbol name :: value :: rest))).ending =
        (env.writeAll context
          (writes (.var name (decide ("-local".toList <:+ operator.toList)) docstring keywords)), none) := by
  refine ⟨_, _, Definition.tail_afterText rest, ?_⟩
  obtain ⟨hfunction, hbody⟩ := notMem_of_variableForm hoperator
  have hleaf : ∀ o os, Sexp.list (.symbol operator :: .symbol name :: value :: rest) = .list (.symbol o :: os) →
      o ∉ Definition.bodyForms := by
    intro o os h
    cases h
    exact hbody
  have hfault : fault? (.list (.symbol operator :: .symbol name :: value :: rest)) = none := by
    simp only [fault?, hoperator, true_or, or_true, if_true, nameFault?]
  have hsuffix : "-local".toList.isSuffixOf operator.toList = decide ("-local".toList <:+ operator.toList) := by
    rw [Bool.eq_iff_iff, List.isSuffixOf_iff_suffix, decide_eq_true_iff]
  rw [ending_evalForm context env hs hleaf, perform, hfault]
  simp only [ofForm?_call, if_neg hfunction, if_pos hoperator, variableOf?, Option.map_some, Option.getD_some, writes,
    record_named, if_pos hname, writeAll_named, List.tail_cons, hsuffix]

/-- The properties that keywords may give to a variable or a face. -/
def keywordProperties : List String :=
  [Property.safeLocalVariable, Property.riskyLocalVariable, Property.customPackageVersion]

/-- What a property of a variable is after its definition: keywords come before the docstring and the locality, and
these before what was known. -/
private theorem property?_writeAll_var (name property : String) (bufferLocal : Bool) (docstring : Option String)
    (keywords : List Sexp) :
    (env.writeAll context (writes (.var name bufferLocal docstring keywords))).property? name property =
      (lastValue? property (Keywords.properties keywords).entries).or
        ((if Property.bufferLocal = property then some (.bool bufferLocal) else none).or
          ((if Property.variableDocumentation = property then docstring.map .string else none).or
            (env.property? name property))) := by
  rw [Environment.property?_writeAll, writes, last?_named, if_pos rfl, lastValue?_append, lastValue?_cons,
    lastValue?_docstringEntry, Option.or_assoc, Option.or_assoc]
  rfl

/-- The properties that a variable definition can change. -/
private theorem sameBut_writeAll_var (name : String) (bufferLocal : Bool) (docstring : Option String)
    (keywords : List Sexp) :
    env.SameBut (env.writeAll context (writes (.var name bufferLocal docstring keywords))) name .var
      (Property.variableDocumentation :: Property.bufferLocal :: keywordProperties) := by
  have hall := sameBut_writeAll_named context env name .var (docstringEntry .var docstring ++
    (Property.bufferLocal, .bool bufferLocal) :: (Keywords.properties keywords).entries)
  refine { hall with property := fun p hp => ?_ }
  simp only [List.mem_cons, not_or] at hp
  obtain ⟨hdocumentation, hlocal, hkeywords⟩ := hp
  rw [property?_writeAll_var, lastValue?_keywords p keywords hkeywords, if_neg (Ne.symm hlocal),
    if_neg (Ne.symm hdocumentation)]
  rfl

/-- A variable definition with a valid name succeeds. It defines the variable, notes whether it is local to buffers, and
reads its tail: the docstring replaces the one before if there is one, and each of the properties of keywords is settled
by the keywords after it. Nothing else changes. -/
theorem slots_of_variable (context : Provenance) (env : Environment) (operator name : String) (value : Sexp)
    (rest : List Sexp) (hoperator : operator ∈ Definition.variableForms) (hname : isSymbolName name = true)
    (hs : (Sexp.list (.symbol operator :: .symbol name :: value :: rest)).sanitize =
      .list (.symbol operator :: .symbol name :: value :: rest)) :
    let step := evalForm {} context env (.list (.symbol operator :: .symbol name :: value :: rest))
    (∃ answer, step.outcome = .ok answer) ∧ step.env.provenance? name .var = some context ∧
      step.env.property? name Property.bufferLocal =
        some (.bool (decide ("-local".toList <:+ operator.toList))) ∧
      (∃ docstring keywords, Definition.Tail rest docstring keywords ∧
        step.env.property? name Property.variableDocumentation =
          (docstring.map .string).or (env.property? name Property.variableDocumentation) ∧
        ∀ property ∈ keywordProperties,
          Keywords.Settles keywords property (env.property? name property) (step.env.property? name property)) ∧
      env.SameBut step.env name .var
        (Property.variableDocumentation :: Property.bufferLocal :: keywordProperties) := by
  intro step
  obtain ⟨docstring, keywords, htail, hending⟩ := ending_of_variableForm context env hoperator hname hs
  have henv : step.env = _ := congrArg Prod.fst hending
  refine ⟨Step.exists_ok_of_ending (congrArg Prod.snd hending), ?_, ?_, ⟨docstring, keywords, htail, ?_, ?_⟩, ?_⟩
  · rw [henv, Environment.provenance?_writeAll, if_pos]
    exact define_mem_writes.2 (List.mem_singleton.2 rfl)
  · rw [henv, property?_writeAll_var, lastValue?_keywords _ keywords (by decide), if_pos rfl]
    rfl
  · rw [henv, property?_writeAll_var, lastValue?_keywords _ keywords (by decide), if_neg (by decide), if_pos rfl]
    rfl
  · intro property hproperty
    have hlocal : Property.bufferLocal ≠ property := by
      rintro rfl
      exact absurd hproperty (by decide)
    have hdocumentation : Property.variableDocumentation ≠ property := by
      rintro rfl
      exact absurd hproperty (by decide)
    rw [henv, property?_writeAll_var, if_neg hlocal, if_neg hdocumentation]
    exact settles_keywords property keywords (env.property? name property)
  · rw [henv]
    exact sameBut_writeAll_var context env name _ docstring keywords

/-- A tail in which later entries for two keys have values of the wrong form. -/
def widthTail : List Sexp :=
  [.string "A width.", .symbol ":risky", .symbol "t", .symbol ":safe", .quoted (.symbol "integerp"), .symbol ":risky",
    .symbol "nil", .symbol ":safe", .integer 5]

theorem slots_of_variable_width :
    let after := (evalForm {} {} .empty
      (.list (.symbol "defvar-local" :: .symbol "width" :: .integer 80 :: widthTail))).env
    after.provenance? "width" .var = some {} ∧
      after.property? "width" Property.variableDocumentation = some (.string "A width.") ∧
      after.property? "width" Property.bufferLocal = some (.bool true) ∧
      after.property? "width" Property.riskyLocalVariable = some (.bool true) ∧
      after.property? "width" Property.safeLocalVariable = some (.symbol "integerp") ∧
      after.property? "width" Property.customPackageVersion = none := by
  have hs : (Sexp.list (.symbol "defvar-local" :: .symbol "width" :: .integer 80 :: widthTail)).sanitize =
      .list (.symbol "defvar-local" :: .symbol "width" :: .integer 80 :: widthTail) := by rfl
  obtain ⟨-, hprovenance, hlocal, ⟨docstring, keywords, htail, hdocumentation, hsettles⟩, -⟩ :=
    slots_of_variable {} .empty "defvar-local" "width" (.integer 80) widthTail (by decide) (by decide) hs
  cases htail with
  | plain hhead => exact absurd rfl (hhead "A width.")
  | documented _ keywords =>
    have hrisky := (hsettles Property.riskyLocalVariable (by decide)).unique (settles_keywords _ _ _)
    have hsafe := (hsettles Property.safeLocalVariable (by decide)).unique (settles_keywords _ _ _)
    have hversion := (hsettles Property.customPackageVersion (by decide)).unique (settles_keywords _ _ _)
    exact ⟨hprovenance, hdocumentation, hlocal, hrisky.trans (by decide), hsafe.trans (by decide),
      hversion.trans (by decide)⟩

end Declaration

end LispDoc
