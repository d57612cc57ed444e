import LispDoc.Description
import LispDoc.Proofs.Evaluation.Effects
import LispDoc.Proofs.Sexp.Concatenation
import LispDoc.Proofs.Sexp.RoundTrip
import Mathlib.Data.List.Forall2

/-!
# Signatures

The arguments of a function are kept as printed forms. In a description they stand behind the name, separated by
spaces, and each becomes a parameter.

Printed forms with spaces between them are read as these forms (`Sexp.readForms_renderItems`). So the signature of a
function that has just been defined is read as its name and its arguments, default values and all.
-/

namespace LispDoc

namespace Sexp

private theorem intercalate_print (items : List Sexp) :
    " ".intercalate (items.map print) = String.ofList (renderItems items) := by
  induction items with
  | nil => rfl
  | cons item items ih =>
    cases items with
    | nil => simp [renderItems, print]
    | cons next more =>
      rw [List.map_cons, List.map_cons, String.intercalate_cons_cons, ← List.map_cons, ih, renderItems_cons_cons, print]
      simp [String.append_assoc]

/-- Printed forms with spaces between them are read as these forms, if each of them reads back. -/
theorem readForms_renderItems {items : List Sexp} (h : ∀ item ∈ items, item.Readable) :
    readForms (String.ofList (renderItems items)) = .ok items := by
  obtain ⟨parts, htokens, hforms, hderives⟩ := derives_tokensOf items h
  refine readForms_eq_ok_iff.2 ⟨tokensOf items, ?_, parts, htokens.symm, hforms.symm, hderives⟩
  have hend : Token.EndsAtom ['\n', ')'] := Token.endsAtom_cons (by decide) _
  rw [String.toList_ofList, kinds_renderItems items h hend, Chunk.kinds_space (by decide), Chunk.kinds_punctuation rfl,
    Chunk.kinds_nil, List.map_append]
  rfl

end Sexp

/-! ### Parameters -/

/-- The parameter has the text of the argument, and is a marker exactly if that text starts with an ampersand. -/
structure Parameter.Shows (p : Parameter) (argument : Sexp) : Prop where
  text_eq : p.text = argument.print
  marker_iff : (∃ text, p = .marker text) ↔ argument.print.toList.head? = some '&'

theorem Parameter.shows_ofText (argument : Sexp) : (Parameter.ofText argument.print).Shows argument := by
  unfold Parameter.ofText
  split
  · rename_i h
    exact ⟨rfl, iff_of_true ⟨_, rfl⟩ h⟩
  · rename_i h
    exact ⟨rfl, iff_of_false (by simp) h⟩

/-! ### Descriptions -/

/-- What a description takes from the argument list of a symbol. -/
private theorem exists_description (options : Docstring.Options) {env : Environment} {name : String} {symbol : Symbol}
    (h : env.lookup name = some symbol) (kind : ObjectKind) :
    ∃ d, (describe options env kind name).description = some d ∧
      d.signature = " ".intercalate (name :: Description.arglistOf symbol kind) ∧
      d.parameters = (Description.arglistOf symbol kind).map Parameter.ofText := by
  rw [describe, h]
  exact ⟨_, rfl, rfl, rfl⟩

private theorem arglistOf_of_property? {env : Environment} {name : String} {arguments : List String}
    (h : env.property? name Property.functionArglist = some (.list arguments)) {kind : ObjectKind}
    (hkind : kind.hasArglist = true) :
    ∃ symbol, env.lookup name = some symbol ∧ Description.arglistOf symbol kind = arguments := by
  obtain ⟨symbol, hlookup, hproperty⟩ := Option.bind_eq_some_iff.1 h
  exact ⟨symbol, hlookup, by rw [Description.arglistOf, if_pos hkind, hproperty]; rfl⟩

namespace Declaration

private theorem notMem_bodyForms_of_mem_functionForms {operator : String} (h : operator ∈ Definition.functionForms) :
    operator ∉ Definition.bodyForms := by
  intro hbody
  have hapart : ∀ o ∈ Definition.functionForms, o ∉ Definition.bodyForms := by decide
  exact hapart operator h hbody

/-- A function definition that succeeds has a symbol for its name, and leaves its printed arguments there. -/
private theorem arglist_of_function (context : Provenance) (env : Environment) {operator : String}
    (hoperator : operator ∈ Definition.functionForms) {form head : Sexp} {arguments rest : List Sexp}
    (hform : form = .list (.symbol operator :: head :: .list arguments :: rest)) (hfixed : form.sanitize = form)
    {value : Option Sexp} (hok : (evalForm {} context env form).outcome = .ok value) :
    ∃ name, head = .symbol name ∧ (evalForm {} context env form).env.property? name Property.functionArglist =
      some (.list (arguments.map Sexp.print)) := by
  have hending : (evalForm {} context env form).ending = (env.writeAll context (effects form), error? form) := by
    rw [ending_evalForm context env hfixed, perform_eq]
    intro o os ho
    rw [hform] at ho
    cases ho
    exact notMem_bodyForms_of_mem_functionForms hoperator
  have hnone : error? form = none := by
    have h := congrArg Prod.snd hending
    rw [Step.ending, hok] at h
    exact h.symm
  have henv : (evalForm {} context env form).env = env.writeAll context (((ofForm? form).map writes).getD []) := by
    rw [← effects_of_error?_eq_none hnone]
    exact congrArg Prod.fst hending
  have hfault : nameFault? operator (head :: .list arguments :: rest) = none := by
    have h := (Option.or_eq_none_iff.1 hnone).1
    rwa [hform, fault?, if_pos (.inl hoperator)] at h
  cases head with
  | symbol name =>
    have hdeclares : ofForm? form =
        some (.function name (arguments.map Sexp.print) (textInFront? rest)) := by
      rw [hform, ofForm?_call, if_pos hoperator]
      rfl
    refine ⟨name, rfl, ?_⟩
    rw [henv, hdeclares, Environment.property?_writeAll, Option.map_some, Option.getD_some, last?_arglist]
    simp [arglist?]
  | _ => simp [nameFault?] at hfault

end Declaration

/-- Once a function definition without stray marks has been evaluated, the name is described as a function, a macro or a
command by a signature that is read as the name and the arguments, and by one parameter for each argument, in order. The
arguments may be any forms that read back. -/
theorem readForms_signature (options : Docstring.Options) (context : Provenance) (env : Environment) {operator : String}
    (hoperator : operator ∈ Definition.functionForms) {form head : Sexp} {arguments rest : List Sexp}
    (hform : form = .list (.symbol operator :: head :: .list arguments :: rest)) (hfixed : form.sanitize = form)
    (hreadable : ∀ item ∈ head :: arguments, item.Readable) {value : Option Sexp}
    (hok : (evalForm {} context env form).outcome = .ok value) {kind : ObjectKind}
    (hkind : kind ∈ [ObjectKind.function, .macroForm, .command]) :
    ∃ name d, head = .symbol name ∧
      (describe options (evalForm {} context env form).env kind name).description = some d ∧
      Sexp.readForms d.signature = .ok (head :: arguments) ∧ List.Forall₂ Parameter.Shows d.parameters arguments := by
  obtain ⟨name, rfl, hproperty⟩ := Declaration.arglist_of_function context env hoperator hform hfixed hok
  have hargs : kind.hasArglist = true := by
    revert kind
    decide
  obtain ⟨symbol, hlookup, harglist⟩ := arglistOf_of_property? hproperty hargs
  obtain ⟨d, hd, hsignature, hparameters⟩ := exists_description options hlookup kind
  have hprint : name = (Sexp.symbol name).print := by simp [Sexp.print, Sexp.render]
  refine ⟨name, d, rfl, hd, ?_, ?_⟩
  · have hitems : " ".intercalate (name :: arguments.map Sexp.print) =
        String.ofList (Sexp.renderItems (.symbol name :: arguments)) := by
      rw [← Sexp.intercalate_print, List.map_cons, ← hprint]
    rw [hsignature, harglist, hitems, Sexp.readForms_renderItems hreadable]
  · rw [hparameters, harglist, List.map_map, List.forall₂_map_left_iff, List.forall₂_same]
    exact fun argument _ => Parameter.shows_ofText argument

/-- A default value with a quoted symbol and a string that needs escapes, a marker, and a vector with a list inside. -/
def greetArguments : List Sexp :=
  [.symbol "name", .symbol "&optional", .list [.symbol "tone", .string "a\"\\\n", .quoted (.symbol "mild")],
    .vector [.integer Int64.minValue, .list []]]

theorem readForms_signature_greet :
    ∃ d, (describe {} (evalForm {} {} .empty
          (.list [.symbol "cl-defun", .symbol "greet", .list greetArguments, .string "Say hi."])).env .command
            "greet").description = some d ∧
      Sexp.readForms d.signature = .ok (.symbol "greet" :: greetArguments) ∧
      List.Forall₂ Parameter.Shows d.parameters greetArguments := by
  have hreads : ∀ name ∈ Sexp.symbolNamesOf (.symbol "greet" :: greetArguments), Sexp.ReadsBack name := by
    simp only [greetArguments, Sexp.symbolNamesOf, Sexp.symbolNames, List.append_nil, List.nil_append, List.cons_append,
      List.forall_mem_cons]
    refine ⟨?_, ?_, ?_, ?_, ?_, by simp⟩ <;>
      exact ⟨by decide, by rfl, by simp [Token.LooksLikeCharacter]⟩
  have hnone : (evalForm {} {} .empty
      (.list [.symbol "cl-defun", .symbol "greet", .list greetArguments, .string "Say hi."])).ending.2 = none := by
    rw [Declaration.ending_evalForm {} .empty rfl (by rintro operator operands ⟨⟩; decide)]
    decide
  obtain ⟨value, hok⟩ := Step.exists_ok_of_ending hnone
  have hoperator : "cl-defun" ∈ Definition.functionForms := by decide
  have hkind : ObjectKind.command ∈ [ObjectKind.function, .macroForm, .command] := by decide
  obtain ⟨name, d, hname, hd⟩ := readForms_signature {} {} .empty hoperator rfl (by rfl)
    (Sexp.readable_of_mem (by rfl) hreads) hok hkind
  obtain rfl := Sexp.symbol.inj hname
  exact ⟨d, hd⟩

end LispDoc
