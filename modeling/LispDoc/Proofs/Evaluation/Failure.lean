import LispDoc.Proofs.Evaluation.Effects
import LispDoc.Proofs.Evaluation.Splicing
import LispDoc.Proofs.Sexp.Concatenation
import LispDoc.Proofs.Sexp.Equality

/-!
# What a failing definition leaves behind

A form that fails may have recorded something before. Functions, variables and faces are changes of one symbol, and
nothing is changed if the name is invalid. A property setting changes two symbols, but what it sets a property of is a
quoted symbol, and those that are read from a file have valid names (`Sexp.isSymbolName_of_quoted`).

That leaves structures. Their slot functions are named one after the other, after the structure itself has been
recorded. The first invalid name stops this (`Declaration.BreaksOff`): it stays recorded that the structure has all its
slots, and only the functions of some of them exist.
-/

namespace LispDoc

/-! ### Quoted symbols of a file -/

theorem Token.CutBefore.isSymbolName {name : String} {text : List Char} {ahead : Option Char}
    (h : (Token.atom name).CutBefore text ahead) : isSymbolName name = true := by
  cases h with
  | @punctuation c t ahead h =>
    unfold Chunk.punctuation? at h
    split at h <;> simp at h
  | @atom c cs ahead hname _ _ =>
    simp only [LispDoc.isSymbolName, String.toList_ofList, List.isEmpty_cons, Bool.not_false, Bool.true_and,
      List.all_eq_true]
    exact hname
  | questionMark _ => decide
  | loneEscape => decide

/-- The atoms of a text without junk are valid names. -/
theorem Chunk.isSymbolName_of_mem_kinds {cs : List Char} {name : String} (hjunk : none ∉ kinds cs)
    (h : some (.atom name) ∈ kinds cs) : isSymbolName name = true := by
  fun_induction Chunk.scan cs with
  | case1 => simp at h
  | case2 c cs ih =>
    rcases next_of_kinds hjunk with ⟨text, rest, hnext, hkinds⟩ | ⟨t, text, rest, hnext, -, hcut, hkinds⟩
    · rw [hkinds] at h hjunk
      rw [hnext] at ih
      exact ih hjunk h
    · rw [hkinds, List.mem_cons] at h
      rw [hkinds, List.mem_cons, not_or] at hjunk
      rw [hnext] at ih
      rcases h with h | h
      · obtain rfl := Option.some.inj h
        exact hcut.isSymbolName
      · exact ih hjunk.2 h

theorem Sexp.ofAtom_cases (text : String) :
    (∃ value, ofAtom text = integer value) ∨ (∃ value, ofAtom text = float value) ∨ ofAtom text = symbol text := by
  unfold ofAtom
  split
  · exact .inl ⟨_, rfl⟩
  · split
    · exact .inr (.inl ⟨_, rfl⟩)
    · exact .inr (.inr rfl)

namespace Reader.Derives

private theorem atom_mem_of_symbol {ts : List Token} {form : Sexp} {name : String} (h : Derives ts form)
    (hform : form = .symbol name) : .atom name ∈ ts := by
  cases h with
  | atom text =>
    rcases Sexp.ofAtom_cases text with ⟨_, hatom⟩ | ⟨_, hatom⟩ | hatom
    · simp [hatom] at hform
    · simp [hatom] at hform
    · rw [hatom] at hform
      obtain rfl := Sexp.symbol.inj hform
      exact List.mem_singleton_self _
  | _ => cases hform

private theorem atom_mem_of_quoted {ts : List Token} {form : Sexp} {name : String} (h : Derives ts form)
    (hform : form = .quoted (.symbol name)) : .atom name ∈ ts := by
  cases h with
  | atom text => rcases Sexp.ofAtom_cases text with ⟨_, hatom⟩ | ⟨_, hatom⟩ | hatom <;> simp [hatom] at hform
  | quote h => exact List.mem_cons_of_mem _ (h.atom_mem_of_symbol (Sexp.quoted.inj hform))
  | _ => cases hform

/-- A quoted symbol among the items of a list was written there as an atom. -/
private theorem atom_mem_of_item {ts : List Token} {form : Sexp} {items : List Sexp} {name : String}
    (h : Derives ts form) (hform : form = .list items) (hitem : .quoted (.symbol name) ∈ items) : .atom name ∈ ts := by
  have hmark : ∀ {mark : String} {inner : Sexp} {us : List Token}, Derives us inner →
      Sexp.list [.symbol mark, inner] = .list items → .atom name ∈ us := by
    intro mark inner us hinner heq
    obtain rfl := Sexp.list.inj heq
    simp only [List.mem_cons, reduceCtorEq, List.not_mem_nil, or_false, false_or] at hitem
    exact hinner.atom_mem_of_quoted hitem.symm
  cases h with
  | atom text => rcases Sexp.ofAtom_cases text with ⟨_, hatom⟩ | ⟨_, hatom⟩ | hatom <;> simp [hatom] at hform
  | list parts hparts =>
    obtain rfl := Sexp.list.inj hform
    obtain ⟨part, hpart, hquoted⟩ := List.mem_map.1 hitem
    have hmem := (hparts part hpart).atom_mem_of_quoted hquoted
    exact List.mem_cons_of_mem _ (List.mem_append_left _ (List.mem_flatMap.2 ⟨part, hpart, hmem⟩))
  | backquote h => exact List.mem_cons_of_mem _ (hmark h hform)
  | comma h => exact List.mem_cons_of_mem _ (hmark h hform)
  | splice h => exact List.mem_cons_of_mem _ (hmark h hform)
  | _ => cases hform

end Reader.Derives

namespace Sexp

/-- Sanitizing leaves no quoted symbol among the items that was not there before. -/
private theorem quoted_mem_of_mem_sanitizeItems {items : List Sexp} {name : String}
    (h : quoted (symbol name) ∈ sanitizeItems items) : quoted (symbol name) ∈ items := by
  induction items with
  | nil => simp [sanitizeItems] at h
  | cons item rest ih =>
    by_cases hstray : isStrayHash item rest = true
    · rw [sanitizeItems_of_stray hstray] at h
      exact List.mem_cons_of_mem _ (ih h)
    · rw [sanitizeItems_of_not_stray hstray, List.mem_cons] at h
      rcases h with h | h
      · rw [sanitize_eq_quoted_symbol_iff.1 h.symm]
        exact List.mem_cons_self
      · exact List.mem_cons_of_mem _ (ih h)

/-- The operator of a sanitized form is that of the form: what a stray mark makes way for is a quoted symbol. -/
private theorem exists_of_sanitize_eq_call {form : Sexp} {operator : String} {operands : List Sexp}
    (h : form.sanitize = list (symbol operator :: operands)) : ∃ items, form = list (symbol operator :: items) := by
  cases form with
  | list items =>
    rw [sanitize, Sexp.list.injEq] at h
    cases items with
    | nil => simp [sanitizeItems] at h
    | cons item rest =>
      by_cases hstray : isStrayHash item rest = true
      · rw [sanitizeItems_of_stray hstray] at h
        obtain ⟨-, name, more, rfl⟩ := isStrayHash_iff.1 hstray
        simp [sanitizeItems_quoted_symbol] at h
      · rw [sanitizeItems_of_not_stray hstray] at h
        rw [sanitize_eq_symbol_iff.1 (List.cons.inj h).1]
        exact ⟨rest, rfl⟩
  | _ => simp [sanitize] at h

/-- The symbols that are quoted in a call of a file have valid names. -/
theorem isSymbolName_of_quoted {content : String} {forms : List Sexp} (hread : readForms content = .ok forms)
    {form : Sexp} (hform : form ∈ forms) {items : List Sexp} (hs : form.sanitize = list items) {name : String}
    (hitem : quoted (symbol name) ∈ items) : isSymbolName name = true := by
  obtain ⟨ts, hkinds, parts, rfl, rfl, hparts⟩ := readForms_eq_ok_iff.1 hread
  obtain ⟨part, hpart, rfl⟩ := List.mem_map.1 hform
  obtain ⟨raw, hraw⟩ : ∃ raw, part.2 = list raw := by
    cases hp : part.2 with
    | list raw => exact ⟨raw, rfl⟩
    | _ => simp [hp, sanitize] at hs
  rw [hraw, sanitize, Sexp.list.injEq] at hs
  have hmem := (hparts part hpart).atom_mem_of_item hraw (quoted_mem_of_mem_sanitizeItems (hs ▸ hitem))
  have hatom : Token.atom name ∈ parts.flatMap (·.1) := List.mem_flatMap.2 ⟨part, hpart, hmem⟩
  have hjunk : none ∉ Chunk.kinds (content.toList ++ ['\n', ')']) := by simp [hkinds]
  refine Chunk.isSymbolName_of_mem_kinds hjunk ?_
  rw [hkinds, List.map_append]
  exact List.mem_append_left _ (List.mem_map_of_mem hatom)

end Sexp

namespace Declaration

/-! ### Structures that break off -/

/-- The form is a structure definition with a valid name, but the name of one of its slot functions is invalid; with
what has been recorded when the first such name is met, and the error. -/
inductive BreaksOff (form : Sexp) : List Write → LispError → Prop
  | atSlot {name stem : String} {docstring : Option String} {earlier later : List String} {slot : String}
      (declares : ofForm? form = some (.struct name stem docstring (earlier ++ slot :: later)))
      (name_valid : isSymbolName name = true) (earlier_valid : ∀ s ∈ earlier, isSymbolName (stem ++ s) = true)
      (slot_invalid : isSymbolName (stem ++ slot) = false) :
      BreaksOff form
        (named name .struct
            (docstringEntry .struct docstring ++ [(Property.structureSlots, .list (earlier ++ slot :: later))]) ++
          earlier.flatMap (accessor stem))
        (.invalidSymbolName (stem ++ slot))

private theorem isValid_of_mem_named {name : String} {scope : Scope} {entries : List (String × PropertyValue)}
    {w : Write} (hw : w ∈ named name scope entries) : w.isValid = isSymbolName name := by
  have hn : name = w.name := exists_name_named.1 ⟨w, hw, rfl⟩
  rw [Write.isValid, ← hn]

/-- Slot functions are recorded up to the first whose name is invalid. -/
private theorem takeWhile_find?_accessors {stem slot : String} {earlier : List String} (later : List String)
    (hearlier : ∀ s ∈ earlier, isSymbolName (stem ++ s) = true) (hslot : isSymbolName (stem ++ slot) = false) :
    ((earlier ++ slot :: later).flatMap (accessor stem)).takeWhile Write.isValid = earlier.flatMap (accessor stem) ∧
      ((earlier ++ slot :: later).flatMap (accessor stem)).find? (fun w => !w.isValid) =
        some (.define (stem ++ slot) .function) := by
  have hvalid : ∀ w ∈ earlier.flatMap (accessor stem), w.isValid = true := by
    intro w hw
    obtain ⟨s, hs, hw⟩ := List.mem_flatMap.1 hw
    rw [isValid_of_mem_named hw]
    exact hearlier s hs
  have hdefine : (Write.define (stem ++ slot) .function).isValid = false := hslot
  rw [List.flatMap_append, List.flatMap_cons, accessor, named, List.cons_append]
  constructor
  · rw [List.takeWhile_append_of_pos hvalid, List.takeWhile_cons_of_neg (by simp [hdefine]), List.append_nil]
  · rw [List.find?_append, List.find?_cons_of_pos (by simp [hdefine]), Option.or_eq_some_iff]
    refine .inr ⟨List.find?_eq_none.2 fun w hw => ?_, rfl⟩
    simp [hvalid w hw]

/-- The forms that can be taken apart: those with a name where one belongs, structures with a name and perhaps options,
and property settings of quoted symbols. -/
private theorem ofForm?_cases {form : Sexp} {d : Declaration} (h : ofForm? form = some d) :
    (∃ operator name rest, form = .list (.symbol operator :: .symbol name :: rest) ∧
      (operator ∈ Definition.functionForms ∨ operator ∈ Definition.variableForms ∨ operator = "defface") ∧
      ∀ n p v, d ≠ .put n p v) ∨
    (∃ spec head rest, form = .list (.symbol "cl-defstruct" :: spec :: rest) ∧ headOf? spec = some head ∧
      ∀ n p v, d ≠ .put n p v) ∨
    ∃ name property value rest, d = .put name property value ∧
      form = .list (.symbol "put" :: .quoted (.symbol name) :: .quoted (.symbol property) :: value :: rest) := by
  obtain ⟨operator, operands, rfl⟩ : ∃ operator operands, form = .list (.symbol operator :: operands) := by
    unfold ofForm? at h
    split at h
    · exact ⟨_, _, rfl⟩
    · cases h
  rw [ofForm?_call] at h
  split at h
  · rename_i hfunction
    unfold functionOf? at h
    split at h
    · obtain rfl := Option.some.inj h
      exact .inl ⟨_, _, _, rfl, .inl hfunction, by simp⟩
    · cases h
  split at h
  · rename_i hvariable
    unfold variableOf? at h
    split at h
    · obtain rfl := Option.some.inj h
      exact .inl ⟨_, _, _, rfl, .inr (.inl hvariable), by simp⟩
    · cases h
  split at h
  · rename_i hface
    unfold faceOf? at h
    split at h
    · obtain rfl := Option.some.inj h
      exact .inl ⟨_, _, _, rfl, .inr (.inr hface), by simp⟩
    · cases h
  split at h
  · rename_i hput
    unfold putOf? at h
    split at h
    · obtain rfl := Option.some.inj h
      exact .inr (.inr ⟨_, _, _, _, rfl, by rw [hput]⟩)
    · cases h
  split at h
  · rename_i hstruct
    unfold structOf? at h
    split at h
    · obtain ⟨head, hhead, rfl⟩ := Option.map_eq_some_iff.1 h
      exact .inr (.inl ⟨_, head, _, by rw [hstruct], hhead, by simp⟩)
    · cases h
  · cases h

/-- A form that can be taken apart has something in the place of its name that may be one. -/
private theorem fault?_of_ofForm? {form : Sexp} {d : Declaration} (h : ofForm? form = some d) : fault? form = none := by
  rcases ofForm?_cases h with ⟨operator, name, rest, rfl, hoperator, -⟩ | ⟨spec, head, rest, rfl, hhead, -⟩ |
    ⟨name, property, value, rest, -, rfl⟩
  · exact if_pos hoperator
  · rw [fault?_struct, hhead]
    rfl
  · rfl

/-- What a form that is taken apart does, in terms of its changes. -/
private theorem effects_error?_of_ofForm? {form : Sexp} {d : Declaration} (h : ofForm? form = some d) :
    effects form = d.writes.takeWhile Write.isValid ∧
      error? form = (d.writes.find? fun w => !w.isValid).map fun w => .invalidSymbolName w.name := by
  rw [effects, error?, fault?_of_ofForm? h, h]
  exact ⟨rfl, rfl⟩

theorem BreaksOff.effects_error? {form : Sexp} {left : List Write} {error : LispError}
    (h : BreaksOff form left error) : effects form = left ∧ error? form = some error := by
  cases h with
  | @atSlot name stem docstring earlier later slot declares name_valid earlier_valid slot_invalid =>
    obtain ⟨heffects, herror⟩ := effects_error?_of_ofForm? declares
    obtain ⟨htake, hfind⟩ := takeWhile_find?_accessors later earlier_valid slot_invalid
    rw [heffects, herror, writes]
    constructor
    · rw [takeWhile_named_append, if_pos name_valid, htake]
    · rw [List.find?_append, hfind, List.find?_eq_none.2, Option.none_or]
      · rfl
      · intro w hw
        simp [isValid_of_mem_named hw, name_valid]

/-! ### Forms that fail -/

/-- A definition of one name is recorded as a whole or not at all. -/
private theorem takeWhile_named_of_find? {name : String} {scope : Scope} {entries : List (String × PropertyValue)}
    {w : Write} (h : (named name scope entries).find? (fun w => !w.isValid) = some w) :
    (named name scope entries).takeWhile Write.isValid = [] := by
  have hname : isSymbolName name = false := by
    rw [← isValid_of_mem_named (List.mem_of_find?_eq_some h)]
    simpa using List.find?_some h
  have hdefine : ¬ (Write.define name scope).isValid = true := by simp [Write.isValid, Write.name, hname]
  rw [named, List.takeWhile_cons_of_neg hdefine]

/-- A structure definition that fails has an invalid name of its own, and records nothing, or breaks off. -/
private theorem breaksOff_of_struct {form : Sexp} {name stem : String} {docstring : Option String} {slots : List String}
    (hdeclares : ofForm? form = some (.struct name stem docstring slots)) {error : LispError}
    (herror : error? form = some error) : effects form = [] ∨ BreaksOff form (effects form) error := by
  obtain ⟨heffects, herror'⟩ := effects_error?_of_ofForm? hdeclares
  by_cases hname : isSymbolName name = true
  · cases hfirst : slots.find? fun slot => !isSymbolName (stem ++ slot) with
    | some slot =>
      obtain ⟨hslot, earlier, later, rfl, hearlier⟩ := List.find?_eq_some_iff_append.1 hfirst
      have hbreaks := BreaksOff.atSlot hdeclares hname (by simpa using hearlier) (by simpa using hslot)
      obtain ⟨hleft, hstop⟩ := hbreaks.effects_error?
      rw [herror, Option.some.injEq] at hstop
      rw [hleft, hstop]
      exact .inr hbreaks
    | none =>
      -- with all names valid nothing stops the definition
      have hvalid : ∀ w ∈ writes (.struct name stem docstring slots), w.isValid = true := by
        intro w hw
        rw [writes, List.mem_append, List.mem_flatMap] at hw
        rcases hw with hw | ⟨slot, hslot, hw⟩
        · rw [isValid_of_mem_named hw, hname]
        · rw [isValid_of_mem_named hw]
          simpa using List.find?_eq_none.1 hfirst slot hslot
      have hnone : (writes (.struct name stem docstring slots)).find? (fun w => !w.isValid) = none :=
        List.find?_eq_none.2 fun w hw => by simp [hvalid w hw]
      rw [herror, hnone] at herror'
      cases herror'
  · refine .inl ?_
    rw [heffects, writes, takeWhile_named_append, if_neg hname]

/-- A property setting with a valid name records nothing if it fails. -/
private theorem effects_of_put {form : Sexp} {name property : String} {value : Sexp}
    (hdeclares : ofForm? form = some (.put name property value)) (hname : isSymbolName name = true) {error : LispError}
    (herror : error? form = some error) : effects form = [] := by
  obtain ⟨heffects, herror'⟩ := effects_error?_of_ofForm? hdeclares
  rw [herror] at herror'
  rw [heffects]
  have hown : ∀ w : Write, w.name = name → w.isValid = true := fun w hw => by rw [Write.isValid, hw, hname]
  rw [writes] at herror' ⊢
  cases hvalue : value.quotedSymbol? with
  | some referred =>
    simp only [hvalue] at herror' ⊢
    by_cases hreferred : (Write.intern referred).isValid = true
    · simp [hreferred, hown (.refer name property referred) rfl] at herror'
    · rw [List.takeWhile_cons_of_neg hreferred]
  | none =>
    simp only [hvalue] at herror'
    cases hconstant : PropertyValue.ofConstant? value with
    | none => simp [hconstant] at herror'
    | some constant => simp [hconstant, hown (.set name property constant) rfl] at herror'

/-- A form that fails records nothing or breaks off, if it sets no property of a symbol with an invalid name. -/
private theorem breaksOff_of_error? {form : Sexp}
    (hput : ∀ name property value, ofForm? form = some (.put name property value) → isSymbolName name = true)
    {error : LispError} (herror : error? form = some error) :
    effects form = [] ∨ BreaksOff form (effects form) error := by
  cases hdeclares : ofForm? form with
  | none =>
    refine .inl ?_
    rw [effects, hdeclares]
    split <;> rfl
  | some d =>
    obtain ⟨heffects, herror'⟩ := effects_error?_of_ofForm? hdeclares
    rw [herror, eq_comm, Option.map_eq_some_iff] at herror'
    obtain ⟨w, hfind, -⟩ := herror'
    cases d with
    | function name arguments docstring =>
      rw [heffects]
      exact .inl (takeWhile_named_of_find? hfind)
    | var name bufferLocal docstring keywords =>
      rw [heffects]
      exact .inl (takeWhile_named_of_find? hfind)
    | face name docstring keywords =>
      rw [heffects]
      exact .inl (takeWhile_named_of_find? hfind)
    | struct name stem docstring slots => exact breaksOff_of_struct hdeclares herror
    | put name property value => exact .inl (effects_of_put hdeclares (hput _ _ _ hdeclares) herror)

/-- A structure that has broken off can be looked up. -/
theorem BreaksOff.writeAll_ne {form : Sexp} {left : List Write} {error : LispError} (h : BreaksOff form left error)
    (context : Provenance) : Environment.empty.writeAll context left ≠ .empty := by
  cases h with
  | @atSlot name stem docstring earlier later slot declares name_valid earlier_valid slot_invalid =>
    intro heq
    have hlookup := Environment.isSome_lookup_writeAll context .empty (named name .struct
      (docstringEntry .struct docstring ++ [(Property.structureSlots, .list (earlier ++ slot :: later))]) ++
        earlier.flatMap (accessor stem)) name
    rw [heq] at hlookup
    cases hlookup.2 (.inl ⟨.define name .struct, by simp [named], rfl⟩)

/-- What a property setting sets a property of is a quoted symbol among its operands. -/
private theorem exists_of_ofForm?_eq_put {form : Sexp} {name property : String} {value : Sexp}
    (h : ofForm? form = some (.put name property value)) :
    ∃ items, form = .list items ∧ .quoted (.symbol name) ∈ items := by
  rcases ofForm?_cases h with ⟨operator, name', rest, -, -, hno⟩ | ⟨spec, head, rest, -, -, hno⟩ |
    ⟨name', property', value', rest, hput, rfl⟩
  · exact absurd rfl (hno _ _ _)
  · exact absurd rfl (hno _ _ _)
  · obtain ⟨rfl, -, -⟩ := Declaration.put.inj hput
    exact ⟨_, rfl, by simp⟩

end Declaration

/-- A form of a file that is no wrapper and fails leaves no trace, in whatever environment it is evaluated, unless it is
a structure definition that breaks off. One that does leaves the structure and the slot functions up to the first with
an invalid name. -/
theorem env_of_failed_form {content : String} {forms : List Sexp} (hread : Sexp.readForms content = .ok forms)
    {form : Sexp} (hform : form ∈ forms) (hwrapper : ¬ form.IsWrapper) (context : Provenance) {env : Environment}
    {error : LispError} (hfails : (evalForm {} context env form).outcome = .error error) :
    ((∀ env, (evalForm {} context env form).env = env) ↔
        ¬ ∃ left stop, Declaration.BreaksOff form.sanitize left stop) ∧
      ∀ left stop, Declaration.BreaksOff form.sanitize left stop →
        stop = error ∧ ∀ env, (evalForm {} context env form).env = env.writeAll context left := by
  have hending : ∀ env, (evalForm {} context env form).ending =
      (env.writeAll context (Declaration.effects form.sanitize), Declaration.error? form.sanitize) := by
    intro env
    rw [Declaration.ending_evalForm context env rfl, Declaration.perform_eq]
    intro operator operands hcall hbody
    obtain ⟨items, rfl⟩ := Sexp.exists_of_sanitize_eq_call hcall
    exact hwrapper ⟨operator, hbody, items, rfl⟩
  have henv : ∀ env, (evalForm {} context env form).env =
      env.writeAll context (Declaration.effects form.sanitize) := fun env => congrArg Prod.fst (hending env)
  have herror : Declaration.error? form.sanitize = some error := by
    have h := congrArg Prod.snd (hending env)
    rw [Step.ending, hfails] at h
    exact h.symm
  refine ⟨⟨?_, fun hnot => ?_⟩, fun left stop hbreaks => ?_⟩
  · rintro htrace ⟨left, stop, hbreaks⟩
    refine hbreaks.writeAll_ne context ?_
    rw [← hbreaks.effects_error?.1, ← henv]
    exact htrace .empty
  · have hput : ∀ name property value, Declaration.ofForm? form.sanitize = some (.put name property value) →
        isSymbolName name = true := by
      intro name property value hdeclares
      obtain ⟨items, hs, hitem⟩ := Declaration.exists_of_ofForm?_eq_put hdeclares
      exact Sexp.isSymbolName_of_quoted hread hform hs hitem
    rcases Declaration.breaksOff_of_error? hput herror with hnone | hbreaks
    · intro env
      rw [henv, hnone, Environment.writeAll_nil]
    · exact absurd ⟨_, _, hbreaks⟩ hnot
  · obtain ⟨hleft, hstop⟩ := hbreaks.effects_error?
    rw [herror, Option.some.injEq] at hstop
    exact ⟨hstop.symm, fun env => by rw [henv, hleft]⟩

attribute [local instance] Sexp.decEq

/-- A definition with a string in the place of its name. -/
theorem env_of_failed_form_string :
    (fun env => (evalForm {} {} env (.list [.symbol "defun", .string "f", .list []])).env) = id := by
  have hread : Sexp.readForms "(defun \"f\" ())" = .ok [.list [.symbol "defun", .string "f", .list []]] := by
    decide +kernel
  have hwrapper : ¬ (Sexp.list [.symbol "defun", .string "f", .list []]).IsWrapper := by
    rintro ⟨operator, hbody, operands, heq⟩
    cases heq
    exact absurd hbody (by decide)
  have hfails : (evalForm {} {} .empty (.list [.symbol "defun", .string "f", .list []])).outcome =
      .error (.invalidSymbolName "\"f\"") := by
    apply Step.outcome_of_ending
    rw [Declaration.ending_evalForm {} .empty rfl (by rintro operator operands ⟨⟩; decide)]
    decide
  refine funext ((env_of_failed_form hread List.mem_cons_self hwrapper {} hfails).1.2 ?_)
  rintro ⟨left, stop, declares, -, -, -⟩
  cases declares

/-- The functions of the slots of this structure would have a space in their names. -/
def brokenStructure : Sexp :=
  .list [.symbol "cl-defstruct", .list [.symbol "point", .list [.symbol ":conc-name", .string "pt "]], .symbol "x",
    .symbol "y"]

/-- The structure is recorded with both slots, and there is no function for either. -/
theorem trace_of_broken_structure :
    Sexp.readForms "(cl-defstruct (point (:conc-name \"pt \")) x y)" = .ok [brokenStructure] ∧
      ¬ brokenStructure.IsWrapper ∧
      (evalForm {} {} .empty brokenStructure).outcome = .error (.invalidSymbolName "pt x") ∧
      (evalForm {} {} .empty brokenStructure).env.property? "point" Property.structureSlots = some (.list ["x", "y"]) ∧
      (evalForm {} {} .empty brokenStructure).env ≠ .empty := by
  have hending : (evalForm {} {} .empty brokenStructure).ending = _ :=
    Declaration.ending_evalForm {} .empty rfl (by rintro operator operands ⟨⟩; decide)
  have hfails : (evalForm {} {} .empty brokenStructure).outcome = .error (.invalidSymbolName "pt x") := by
    apply Step.outcome_of_ending
    rw [hending]
    decide
  have hslots : (evalForm {} {} .empty brokenStructure).env.property? "point" Property.structureSlots =
      some (.list ["x", "y"]) := by
    have henv : (evalForm {} {} .empty brokenStructure).env = _ := congrArg Prod.fst hending
    rw [henv]
    decide
  refine ⟨by decide +kernel, ?_, hfails, hslots, ?_⟩
  · rintro ⟨operator, hbody, operands, heq⟩
    cases heq
    exact absurd hbody (by decide)
  · intro heq
    rw [heq] at hslots
    cases hslots

end LispDoc
