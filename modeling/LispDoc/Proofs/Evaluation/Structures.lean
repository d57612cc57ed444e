import LispDoc.Proofs.Evaluation.Effects
import LispDoc.Roles

/-!
# The functions of slots

A structure definition names its slots twice: the structure lists them, and each of them gets a function. What the
names of these functions start with is told by the options of the structure (`Definition.Stem`): the first one that
gives a name decides, and without one it is the name of the structure and a hyphen.

Documentation that is written by hand knows nothing of options. It takes the function of a slot to be named after the
structure and the slot, and that is right whenever no option says otherwise (`Declaration.slots_of_structure`). A slot
that has a function contains no space, and neither does its structure, so that what stands before and after the space of
a reference are these two (`Roles.target_slotReference_of_struct`).
-/

namespace LispDoc

/-! ### References to slots -/

private theorem space_notMem_of_isSymbolName {name : String} (h : isSymbolName name = true) : ' ' ∉ name.toList := by
  intro hspace
  have hall : name.toList.all Token.isConstituent = true := (Bool.and_eq_true_iff.1 h).2
  have hno : Token.isConstituent ' ' = false := by decide
  rw [List.all_eq_true.1 hall ' ' hspace] at hno
  cases hno

namespace Roles

variable (title : String) (explicit : Bool)

private theorem dropWhile_tilde {cs : List Char} (h : cs.head? ≠ some '~') : cs.dropWhile (· == '~') = cs := by
  cases cs with
  | nil => rfl
  | cons c cs =>
    have hc : c ≠ '~' := by simpa using h
    rw [List.dropWhile_cons_of_neg (by simpa using hc)]

private theorem bne_space_of_mem {cs : List Char} (h : ' ' ∉ cs) : ∀ c ∈ cs, (c != ' ') = true := by
  intro c hc
  have hne : c ≠ ' ' := fun heq => h (heq ▸ hc)
  simpa using hne

/-- A slot on its own belongs to the structure that is being documented. -/
private theorem target_slotReference_of_slot {struct slot : String} (hspace : ' ' ∉ slot.toList)
    (htilde : slot.toList.head? ≠ some '~') :
    (slotReference (some struct) title slot explicit).target = accessorName struct slot := by
  have htake : slot.toList.takeWhile (· != ' ') = slot.toList :=
    List.takeWhile_eq_self_iff.2 (bne_space_of_mem hspace)
  have hdrop : slot.toList.dropWhile (· != ' ') = [] := by
    rw [List.dropWhile_eq_nil_iff]
    exact bne_space_of_mem hspace
  simp only [slotReference, dropWhile_tilde htilde, hdrop, htake, String.ofList_toList, Option.elim_some]

/-- A slot after its structure belongs to that structure, whatever is being documented. -/
theorem target_slotReference_of_struct (current : Option String) {struct : String} (slot : String)
    (hspace : ' ' ∉ struct.toList) (htilde : struct.toList.head? ≠ some '~') :
    (slotReference current title (struct ++ " " ++ slot) explicit).target = accessorName struct slot := by
  have htext : (struct ++ " " ++ slot).toList = struct.toList ++ ' ' :: slot.toList := by simp
  have hhead : (struct.toList ++ ' ' :: slot.toList).head? ≠ some '~' := by
    cases hs : struct.toList with
    | nil => simp
    | cons c cs => simpa [hs] using htilde
  have hbefore := bne_space_of_mem hspace
  have htake : (struct.toList ++ ' ' :: slot.toList).takeWhile (· != ' ') = struct.toList := by
    rw [List.takeWhile_append_of_pos hbefore, List.takeWhile_cons_of_neg (by simp), List.append_nil]
  have hdrop : (struct.toList ++ ' ' :: slot.toList).dropWhile (· != ' ') = ' ' :: slot.toList := by
    rw [List.dropWhile_append_of_pos hbefore, List.dropWhile_cons_of_neg (by simp)]
  simp only [slotReference, htext, dropWhile_tilde hhead, hdrop, htake, String.ofList_toList]

/-- References to a slot lead to the function that is named after the structure and the slot, if this is the name of a
symbol. -/
private theorem target_of_isSymbolName {struct slot : String} (hvalid : isSymbolName (accessorName struct slot) = true)
    (hstruct : struct.toList.head? ≠ some '~') (hslot : slot.toList.head? ≠ some '~') :
    (slotReference (some struct) title slot explicit).target = accessorName struct slot ∧
      ∀ current, (slotReference current title (struct ++ " " ++ slot) explicit).target = accessorName struct slot := by
  have hspace := space_notMem_of_isSymbolName hvalid
  simp only [accessorName, String.toList_append, List.mem_append, not_or] at hspace
  obtain ⟨⟨hbefore, -⟩, hafter⟩ := hspace
  constructor
  · exact target_slotReference_of_slot title explicit hafter hslot
  · exact fun current => target_slotReference_of_struct title explicit current slot hbefore hstruct

end Roles

/-! ### What a structure definition says -/

namespace Definition

/-- The first operand of a structure definition is its name, or a list of its name and options. -/
inductive Heads : Sexp → String → List Sexp → Prop
  | symbol (name : String) : Heads (.symbol name) name []
  | list (name : String) (options : List Sexp) : Heads (.list (.symbol name :: options)) name options

/-- An option that says what the names of slot functions start with. -/
def GivesStem (option : Sexp) (text : String) : Prop :=
  ∃ value more, option = .list (.symbol ":conc-name" :: value :: more) ∧ (value = .symbol text ∨ value = .string text)

/-- What the names of slot functions start with: the text of the first option that gives one, where `nil` stands for
nothing, or else the name of the structure and a hyphen. -/
inductive Stem (name : String) (options : List Sexp) : String → Prop
  | given {earlier later : List Sexp} {option : Sexp} {text : String} (parts : options = earlier ++ option :: later)
      (first : ∀ o ∈ earlier, ∀ t, ¬ GivesStem o t) (gives : GivesStem option text) :
      Stem name options (if text = "nil" then "" else text)
  | own (silent : ∀ o ∈ options, ∀ t, ¬ GivesStem o t) : Stem name options (name ++ "-")

/-- The slots among the operands, in order: symbols, and symbols at the head of lists. -/
inductive ListsSlots : List Sexp → List String → Prop
  | nil : ListsSlots [] []
  | symbol {operands : List Sexp} {slots : List String} (slot : String) (rest : ListsSlots operands slots) :
      ListsSlots (.symbol slot :: operands) (slot :: slots)
  | list {operands : List Sexp} {slots : List String} (slot : String) (more : List Sexp)
      (rest : ListsSlots operands slots) : ListsSlots (.list (.symbol slot :: more) :: operands) (slot :: slots)
  | other {operands : List Sexp} {slots : List String} {operand : Sexp} (symbol : ∀ slot, operand ≠ .symbol slot)
      (list : ∀ slot more, operand ≠ .list (.symbol slot :: more)) (rest : ListsSlots operands slots) :
      ListsSlots (operand :: operands) slots

/-- An option that gives no name decides nothing. -/
theorem Stem.behind {name stem : String} {option : Sexp} {options : List Sexp}
    (hsilent : ∀ text, ¬ GivesStem option text) (h : Stem name options stem) : Stem name (option :: options) stem := by
  cases h with
  | @given earlier later decisive text parts first gives =>
    rw [parts]
    exact .given (List.cons_append ..).symm (List.forall_mem_cons.2 ⟨hsilent, first⟩) gives
  | own silent => exact .own (List.forall_mem_cons.2 ⟨hsilent, silent⟩)

private theorem stem_of_gives (name : String) {option : Sexp} {text : String} (h : GivesStem option text)
    (options : List Sexp) : Stem name (option :: options) (if text = "nil" then "" else text) :=
  .given (List.nil_append _).symm (by simp) h

private theorem stem_stemOf (name : String) (options : List Sexp) :
    Stem name options (Declaration.stemOf name options) := by
  fun_induction Declaration.stemOf name options with
  | case1 => exact .own (by simp)
  | case2 more options => exact stem_of_gives name ⟨_, more, rfl, .inl rfl⟩ options
  | case3 text more options hnil =>
    have h := stem_of_gives name ⟨.symbol text, more, rfl, .inl rfl⟩ options
    rwa [if_neg hnil] at h
  | case4 more options => exact stem_of_gives name ⟨_, more, rfl, .inr rfl⟩ options
  | case5 text more options hnil =>
    have h := stem_of_gives name ⟨.string text, more, rfl, .inr rfl⟩ options
    rwa [if_neg hnil] at h
  | case6 option options hsymbol hstring ih =>
    refine .behind ?_ ih
    rintro text ⟨value, more, rfl, rfl | rfl⟩
    · exact hsymbol text more rfl
    · exact hstring text more rfl

/-- Without an option that says otherwise slot functions are named after the structure. -/
theorem Stem.eq_of_silent {name stem : String} {options : List Sexp} (h : Stem name options stem)
    (hsilent : ∀ option ∈ options, ∀ text, ¬ GivesStem option text) : stem = name ++ "-" := by
  cases h with
  | given parts first gives => exact absurd gives (hsilent _ (by rw [parts]; simp) _)
  | own silent => rfl

private theorem listsSlots_iff {operands : List Sexp} {slots : List String} :
    ListsSlots operands slots ↔ slots = Declaration.slotsOf operands := by
  constructor
  · intro h
    induction h with
    | nil => rfl
    | symbol slot _ ih =>
      rw [ih]
      rfl
    | list slot more _ ih =>
      rw [ih]
      rfl
    | other hsymbol hlist _ ih => rw [ih, Declaration.slotsOf.eq_4 _ _ hsymbol hlist]
  · rintro rfl
    fun_induction Declaration.slotsOf operands with
    | case1 => exact .nil
    | case2 slot operands ih => exact .symbol slot ih
    | case3 slot more operands ih => exact .list slot more ih
    | case4 operand operands hsymbol hlist ih => exact .other hsymbol hlist ih

private theorem heads_of_headOf? {spec : Sexp} {name : String} {options : List Sexp}
    (h : Declaration.headOf? spec = some (name, options)) : Heads spec name options := by
  unfold Declaration.headOf? at h
  split at h
  · obtain ⟨rfl, rfl⟩ := Prod.mk.inj (Option.some.inj h)
    exact .symbol _
  · obtain ⟨rfl, rfl⟩ := Prod.mk.inj (Option.some.inj h)
    exact .list _ _
  · cases h

end Definition

namespace Declaration

/-- A structure definition that does not fail can be taken apart. -/
private theorem exists_of_structForm {operands : List Sexp}
    (h : error? (.list (.symbol "cl-defstruct" :: operands)) = none) :
    ∃ spec rest name options, operands = spec :: rest ∧ Definition.Heads spec name options ∧
      ofForm? (.list (.symbol "cl-defstruct" :: operands)) =
        some (.struct name (stemOf name options) (textInFront? rest) (slotsOf rest)) := by
  have hfault : fault? (.list (.symbol "cl-defstruct" :: operands)) = none := (Option.or_eq_none_iff.1 h).1
  rcases operands with _ | ⟨spec, rest⟩
  · cases hfault
  · cases hspec : headOf? spec with
    | none =>
      rw [fault?_struct, hspec] at hfault
      cases hfault
    | some head =>
      exact ⟨spec, rest, head.1, head.2, rfl, Definition.heads_of_headOf? hspec, congrArg (Option.map _) hspec⟩

private theorem last?_structureSlots (env : Environment) (name stem : String) (docstring : Option String)
    (slots : List String) :
    Write.last? env name Property.structureSlots (writes (.struct name stem docstring slots)) = some (.list slots) := by
  have hslots : Property.structureSlots ≠ Property.functionArglist := by decide
  simp [writes, Write.last?_append, last?_named, last?_accessors, hslots]

private theorem mem_defined_of_slot {name stem slot : String} {docstring : Option String} {slots : List String}
    (h : slot ∈ slots) : (stem ++ slot, .function) ∈ defined (.struct name stem docstring slots) :=
  List.mem_cons_of_mem _ (List.mem_map.2 ⟨slot, h, rfl⟩)

/-- A structure definition that succeeds makes all its changes, and the names of all its slot functions are valid. -/
private theorem env_of_structForm {context : Provenance} {env : Environment} {operands : List Sexp}
    {value : Option Sexp}
    (hs : (Sexp.list (.symbol "cl-defstruct" :: operands)).sanitize = .list (.symbol "cl-defstruct" :: operands))
    (hok : (evalForm {} context env (.list (.symbol "cl-defstruct" :: operands))).outcome = .ok value) :
    ∃ spec rest name options slots stem docstring, operands = spec :: rest ∧ Definition.Heads spec name options ∧
      Definition.ListsSlots rest slots ∧ Definition.Stem name options stem ∧
      (evalForm {} context env (.list (.symbol "cl-defstruct" :: operands))).env =
        env.writeAll context (writes (.struct name stem docstring slots)) ∧
      ∀ slot ∈ slots, isSymbolName (stem ++ slot) = true := by
  have hleaf : ∀ operator os, Sexp.list (.symbol "cl-defstruct" :: operands) = .list (.symbol operator :: os) →
      operator ∉ Definition.bodyForms := by
    intro operator os h
    cases h
    decide
  have hending := ending_evalForm context env hs hleaf
  rw [perform_eq] at hending
  have herror : error? (.list (.symbol "cl-defstruct" :: operands)) = none := by
    have hsnd := congrArg Prod.snd hending
    rw [Step.ending, hok] at hsnd
    exact hsnd.symm
  obtain ⟨spec, rest, name, options, rfl, hheads, hform⟩ := exists_of_structForm herror
  have heffects := effects_of_error?_eq_none herror
  rw [hform, Option.map_some, Option.getD_some] at heffects
  refine ⟨spec, rest, name, options, slotsOf rest, stemOf name options, textInFront? rest, rfl, hheads,
    Definition.listsSlots_iff.2 rfl, Definition.stem_stemOf name options, ?_, fun slot hslot => ?_⟩
  · rw [← heffects]
    exact congrArg Prod.fst hending
  · have hsound := sound_effects (.list (.symbol "cl-defstruct" :: spec :: rest))
    rw [heffects] at hsound
    exact hsound.valid (.define (stemOf name options ++ slot) .function)
      (define_mem_writes.2 (mem_defined_of_slot hslot))

/-- After a structure definition that succeeds the structure has its slots, and the function of each slot is defined.
Unless an option says how these functions are called, they are the ones that references to the slots lead to, be it
inside the documentation of the structure or with the name of the structure in front. -/
theorem slots_of_structure (context : Provenance) (env : Environment) (operands : List Sexp) (value : Option Sexp)
    (hs : (Sexp.list (.symbol "cl-defstruct" :: operands)).sanitize = .list (.symbol "cl-defstruct" :: operands))
    (hok : (evalForm {} context env (.list (.symbol "cl-defstruct" :: operands))).outcome = .ok value) :
    let after := (evalForm {} context env (.list (.symbol "cl-defstruct" :: operands))).env
    ∃ spec rest name options slots stem, operands = spec :: rest ∧ Definition.Heads spec name options ∧
      Definition.ListsSlots rest slots ∧ Definition.Stem name options stem ∧
      after.property? name Property.structureSlots = some (.list slots) ∧
      (∀ slot ∈ slots, after.provenance? (stem ++ slot) .function = some context ∧
        after.property? (stem ++ slot) Property.functionArglist = some (.list ["cl-x"])) ∧
      ((∀ option ∈ options, ∀ text, ¬ Definition.GivesStem option text) → name.toList.head? ≠ some '~' →
        ∀ slot ∈ slots, slot.toList.head? ≠ some '~' → Roles.slotName (some name) slot = .ok (stem ++ slot) ∧
          ∀ title explicit, (Roles.slotReference (some name) title slot explicit).target = stem ++ slot ∧
            ∀ current, (Roles.slotReference current title (name ++ " " ++ slot) explicit).target = stem ++ slot) := by
  intro after
  obtain ⟨spec, rest, name, options, slots, stem, docstring, rfl, hheads, hlists, hstem, henv, hvalid⟩ :=
    env_of_structForm hs hok
  have hafter : after = env.writeAll context (writes (.struct name stem docstring slots)) := henv
  refine ⟨spec, rest, name, options, slots, stem, rfl, hheads, hlists, hstem, ?_, ?_, ?_⟩
  · rw [hafter, Environment.property?_writeAll, last?_structureSlots, Option.some_or]
  · intro slot hslot
    rw [hafter, Environment.provenance?_writeAll, Environment.property?_writeAll, last?_arglist]
    have harglist : arglist? env (stem ++ slot) (.struct name stem docstring slots) = some (.list ["cl-x"]) :=
      if_pos ⟨slot, hslot, rfl⟩
    exact ⟨if_pos (define_mem_writes.2 (mem_defined_of_slot hslot)), by rw [harglist, Option.some_or]⟩
  · intro hsilent hname slot hslot htilde
    have hslotName := hvalid slot hslot
    obtain rfl := hstem.eq_of_silent hsilent
    exact ⟨rfl, fun title explicit => Roles.target_of_isSymbolName title explicit hslotName hname htilde⟩

/-- A structure with an option that says nothing about its functions, a docstring and two slots. -/
def pointOperands : List Sexp :=
  [.list [.symbol "point", .list [.symbol ":constructor", .symbol "make"]], .string "A point.", .symbol "x",
    .list [.symbol "y", .integer 0]]

theorem slots_of_structure_point :
    let after := (evalForm {} {} .empty (.list (.symbol "cl-defstruct" :: pointOperands))).env
    after.property? "point" Property.structureSlots = some (.list ["x", "y"]) ∧
      after.provenance? "point-y" .function = some {} ∧
      (Roles.slotReference none "" "point y" false).target = "point-y" := by
  have hs : (Sexp.list (.symbol "cl-defstruct" :: pointOperands)).sanitize =
      .list (.symbol "cl-defstruct" :: pointOperands) := by rfl
  have hending := ending_evalForm {} .empty hs fun o os h => by
    cases h
    decide
  obtain ⟨value, hok⟩ : ∃ value, (evalForm {} {} .empty
      (.list (.symbol "cl-defstruct" :: pointOperands))).outcome = .ok value := by
    apply Step.exists_ok_of_ending
    rw [hending, perform_eq]
    decide
  obtain ⟨spec, rest, name, options, slots, stem, hoperands, hheads, hlists, hstem, hslots, hfunctions, hreferences⟩ :=
    slots_of_structure {} .empty pointOperands value hs hok
  cases hoperands
  cases hheads
  obtain rfl : slots = ["x", "y"] := Definition.listsSlots_iff.1 hlists
  have hsilent : ∀ option ∈ [Sexp.list [.symbol ":constructor", .symbol "make"]], ∀ text,
      ¬ Definition.GivesStem option text := by
    rintro option hoption text ⟨value, more, rfl, -⟩
    simp at hoption
  obtain rfl : stem = "point-" := hstem.eq_of_silent hsilent
  have hy := hreferences hsilent (by decide) "y" (by simp) (by decide)
  exact ⟨hslots, (hfunctions "y" (by simp)).1, (hy.2 "" false).2 none⟩

end Declaration

end LispDoc
