import LispDoc.Proofs.Number.Digits
import LispDoc.Proofs.Sexp.Lexing

/-!
# Reading undoes printing

A form has a sequence of tokens of its own (`Sexp.tokens`). Its printed form is cut into just these tokens, whatever
follows that cannot continue an atom (`Sexp.kinds_render`), and the grammar derives the form from them
(`Sexp.derives_tokens`), so that reading the printed form gives the form back.

Floats are left out: their printed form is chosen among the decimals that read back. Of symbols it is asked that the
name is one atom, that this atom is no number, and that it is not taken for a character literal (`Sexp.ReadsBack`).
-/

namespace LispDoc.Sexp

mutual
/-- Whether a float occurs in the form. -/
def hasFloat : Sexp → Bool
  | float _ => true
  | quoted inner => inner.hasFloat
  | list items => anyHasFloat items
  | vector items => anyHasFloat items
  | _ => false

def anyHasFloat : List Sexp → Bool
  | [] => false
  | item :: items => item.hasFloat || anyHasFloat items
end

mutual
/-- The names of the symbols in the form, at every depth. -/
def symbolNames : Sexp → List String
  | symbol name => [name]
  | quoted inner => inner.symbolNames
  | list items => symbolNamesOf items
  | vector items => symbolNamesOf items
  | _ => []

def symbolNamesOf : List Sexp → List String
  | [] => []
  | item :: items => item.symbolNames ++ symbolNamesOf items
end

/-- The name is an atom that stands for the symbol of that name. -/
structure ReadsBack (name : String) : Prop where
  isSymbolName : isSymbolName name = true
  ofAtom : ofAtom name = symbol name
  notCharacter : ¬ Token.LooksLikeCharacter name.toList

/-! ### Forms that read back -/

/-- No float occurs in the form, and the names of its symbols read back. -/
structure Readable (form : Sexp) : Prop where
  noFloat : form.hasFloat = false
  names : ∀ name ∈ form.symbolNames, ReadsBack name

private theorem hasFloat_of_mem {items : List Sexp} (h : anyHasFloat items = false) {item : Sexp} (hi : item ∈ items) :
    item.hasFloat = false := by
  induction items with
  | nil => simp at hi
  | cons first items ih =>
    simp only [anyHasFloat, Bool.or_eq_false_iff] at h
    rcases List.mem_cons.1 hi with rfl | hi
    · exact h.1
    · exact ih h.2 hi

private theorem mem_symbolNamesOf {items : List Sexp} {item : Sexp} (hi : item ∈ items) {name : String}
    (hn : name ∈ item.symbolNames) : name ∈ symbolNamesOf items := by
  induction items with
  | nil => simp at hi
  | cons first items ih =>
    rw [symbolNamesOf, List.mem_append]
    rcases List.mem_cons.1 hi with rfl | hi
    · exact .inl hn
    · exact .inr (ih hi)

theorem Readable.ofQuoted {inner : Sexp} (h : (quoted inner).Readable) : inner.Readable := by
  obtain ⟨hf, hs⟩ := h
  rw [hasFloat] at hf
  rw [symbolNames] at hs
  exact ⟨hf, hs⟩

theorem readable_of_mem {items : List Sexp} (hf : anyHasFloat items = false)
    (hs : ∀ name ∈ symbolNamesOf items, ReadsBack name) : ∀ item ∈ items, item.Readable :=
  fun _ hi => ⟨hasFloat_of_mem hf hi, fun name hn => hs name (mem_symbolNamesOf hi hn)⟩

theorem Readable.ofList {items : List Sexp} (h : (list items).Readable) : ∀ item ∈ items, item.Readable := by
  obtain ⟨hf, hs⟩ := h
  rw [hasFloat] at hf
  rw [symbolNames] at hs
  exact readable_of_mem hf hs

theorem Readable.ofVector {items : List Sexp} (h : (vector items).Readable) : ∀ item ∈ items, item.Readable := by
  obtain ⟨hf, hs⟩ := h
  rw [hasFloat] at hf
  rw [symbolNames] at hs
  exact readable_of_mem hf hs

/-! ### Tokens of a form -/

mutual
/-- The tokens that the form is printed with. -/
def tokens : Sexp → List Token
  | symbol name => [.atom name]
  | string text => [.string text]
  | integer value => [.atom (String.ofList (Digits.ofInt value.toInt))]
  | float value => [.atom (String.ofList (renderFloat value))]
  | quoted inner => .quote :: inner.tokens
  | list items => .openParen :: (tokensOf items ++ [.closeParen])
  | vector items => .openBracket :: (tokensOf items ++ [.closeBracket])

def tokensOf : List Sexp → List Token
  | [] => []
  | item :: items => item.tokens ++ tokensOf items
end

theorem tokensOf_cons (item : Sexp) (items : List Sexp) : tokensOf (item :: items) = item.tokens ++ tokensOf items := by
  rw [tokensOf]

theorem renderItems_cons_cons (item next : Sexp) (items : List Sexp) :
    renderItems (item :: next :: items) = item.render ++ ' ' :: renderItems (next :: items) := by
  rw [renderItems]
  simp

private theorem ofAtom_ofInt (value : Int64) : ofAtom (String.ofList (Digits.ofInt value.toInt)) = integer value := by
  rw [ofAtom, String.toList_ofList, Digits.toInt64?_ofInt]

mutual
theorem derives_tokens : (form : Sexp) → form.Readable → Reader.Derives form.tokens form
  | symbol name, h => by
    have hatom := (h.names name (by simp [symbolNames])).ofAtom
    have hd := Reader.Derives.atom name
    rwa [hatom] at hd
  | string text, _ => .string text
  | integer value, _ => by
    have hd := Reader.Derives.atom (String.ofList (Digits.ofInt value.toInt))
    rwa [ofAtom_ofInt] at hd
  | float _, h => by simpa [hasFloat] using h.noFloat
  | quoted inner, h => .quote (derives_tokens inner h.ofQuoted)
  | list items, h => by
    obtain ⟨parts, htokens, hforms, hd⟩ := derives_tokensOf items h.ofList
    rw [tokens, ← htokens, ← hforms]
    exact .list parts hd
  | vector items, h => by
    obtain ⟨parts, htokens, hforms, hd⟩ := derives_tokensOf items h.ofVector
    rw [tokens, ← htokens, ← hforms]
    exact .vector parts hd

theorem derives_tokensOf : (items : List Sexp) → (∀ item ∈ items, item.Readable) →
    ∃ parts : List (List Token × Sexp), parts.flatMap (·.1) = tokensOf items ∧ parts.map (·.2) = items ∧
      ∀ part ∈ parts, Reader.Derives part.1 part.2
  | [], _ => ⟨[], by simp [tokensOf]⟩
  | item :: items, h => by
    have hitem := derives_tokens item (h item (by simp))
    obtain ⟨parts, htokens, hforms, hd⟩ := derives_tokensOf items fun i hi => h i (by simp [hi])
    refine ⟨(item.tokens, item) :: parts, by simp [tokensOf, htokens], by simp [hforms], ?_⟩
    intro part hpart
    rcases List.mem_cons.1 hpart with rfl | hpart
    · exact hitem
    · exact hd part hpart
end

/-! ### Cutting the printed form -/

private theorem kinds_symbol {name : String} (h : ReadsBack name) {rest : List Char} (hr : Token.EndsAtom rest) :
    Chunk.kinds (name.toList ++ rest) = some (.atom name) :: Chunk.kinds rest := by
  have hname := h.isSymbolName
  simp only [LispDoc.isSymbolName, Bool.and_eq_true, Bool.not_eq_true', List.isEmpty_eq_false_iff,
    List.all_eq_true] at hname
  have hk := Chunk.kinds_atom hname.1 hname.2 h.notCharacter hr
  rwa [String.ofList_toList] at hk

/-- Signs and digits are constituents, and neither is a question mark. -/
private theorem isConstituent_of_mem_ofInt {n : Int} {c : Char} (h : c ∈ Digits.ofInt n) :
    Token.isConstituent c = true ∧ c ≠ '?' := by
  rcases Digits.mem_ofInt h with rfl | hd
  · exact ⟨by decide, by decide⟩
  · have hd : 48 ≤ c.toNat ∧ c.toNat ≤ 57 := by
      simpa [Char.isDigit, UInt32.le_iff_toNat_le] using hd
    have hne : ∀ d : Char, d.toNat < 48 ∨ 57 < d.toNat → c ≠ d := by
      intro d hout he
      rw [he] at hd
      omega
    refine ⟨?_, hne '?' (by decide)⟩
    have hblank : Text.isBlank c = false := by
      simp [Text.isBlank]
      omega
    have hdelim : Token.isDelimiter c = false := by
      simp only [Token.isDelimiter, Bool.or_eq_false_iff, beq_eq_false_iff_ne]
      refine ⟨⟨⟨⟨⟨⟨⟨⟨?_, ?_⟩, ?_⟩, ?_⟩, ?_⟩, ?_⟩, ?_⟩, ?_⟩, ?_⟩ <;> exact hne _ (by decide)
    simp [Token.isConstituent, hblank, hdelim]

private theorem kinds_integer (value : Int64) {rest : List Char} (hr : Token.EndsAtom rest) :
    Chunk.kinds (Digits.ofInt value.toInt ++ rest) =
      some (.atom (String.ofList (Digits.ofInt value.toInt))) :: Chunk.kinds rest := by
  refine Chunk.kinds_atom (Digits.ofInt_ne_nil _) (fun c hc => (isConstituent_of_mem_ofInt hc).1) ?_ hr
  have hmark : '?' ∉ Digits.ofInt value.toInt := fun hm => (isConstituent_of_mem_ofInt hm).2 rfl
  rintro (he | ⟨c, he⟩ | ⟨c, he⟩) <;> exact hmark (by simp [he])

/-- Items between an opening and a closing character are cut into the two tokens and what is between. -/
private theorem kinds_enclosed {first last : Char} {opening closing : Token}
    (ho : Chunk.punctuation? first = some opening) (hc : Chunk.punctuation? last = some closing)
    {inner rest : List Char} {ts : List Token}
    (h : Chunk.kinds (inner ++ last :: rest) = ts.map some ++ Chunk.kinds (last :: rest)) :
    Chunk.kinds (first :: inner ++ [last] ++ rest) =
      (opening :: (ts ++ [closing])).map some ++ Chunk.kinds rest := by
  rw [List.append_assoc, List.singleton_append, List.cons_append, Chunk.kinds_punctuation ho, h,
    Chunk.kinds_punctuation hc]
  simp

mutual
/-- The printed form is cut into the tokens of the form, in front of anything that cannot continue an atom. -/
theorem kinds_render : (form : Sexp) → form.Readable → ∀ {rest : List Char}, Token.EndsAtom rest →
    Chunk.kinds (form.render ++ rest) = form.tokens.map some ++ Chunk.kinds rest
  | symbol name, h, rest, hr => by
    rw [render, kinds_symbol (h.names name (by simp [symbolNames])) hr]
    rfl
  | string text, _, rest, _ => by
    have hk := Chunk.kinds_string text.toList rest
    rw [String.ofList_toList] at hk
    simpa [render, tokens] using hk
  | integer value, _, rest, hr => by
    rw [render, kinds_integer value hr]
    rfl
  | float _, h, _, _ => by simpa [hasFloat] using h.noFloat
  | quoted inner, h, rest, hr => by
    have hinner := kinds_render inner h.ofQuoted hr
    rw [render, List.cons_append, Chunk.kinds_punctuation rfl, hinner, tokens]
    rfl
  | list items, h, rest, _ => by
    have hend : Token.EndsAtom (')' :: rest) := Token.endsAtom_cons (by decide) rest
    rw [render, tokens]
    exact kinds_enclosed rfl rfl (kinds_renderItems items h.ofList hend)
  | vector items, h, rest, _ => by
    have hend : Token.EndsAtom (']' :: rest) := Token.endsAtom_cons (by decide) rest
    rw [render, tokens]
    exact kinds_enclosed rfl rfl (kinds_renderItems items h.ofVector hend)

theorem kinds_renderItems : (items : List Sexp) → (∀ item ∈ items, item.Readable) →
    ∀ {rest : List Char}, Token.EndsAtom rest →
      Chunk.kinds (renderItems items ++ rest) = (tokensOf items).map some ++ Chunk.kinds rest
  | [], _, rest, _ => by simp [renderItems, tokensOf]
  | item :: items, h, rest, hr => by
    have hitem : ∀ {rest : List Char}, Token.EndsAtom rest →
        Chunk.kinds (item.render ++ rest) = item.tokens.map some ++ Chunk.kinds rest :=
      kinds_render item (h item (by simp))
    have hitems := kinds_renderItems items (fun i hi => h i (by simp [hi])) hr
    cases items with
    | nil => simpa [renderItems, tokensOf] using hitem hr
    | cons next more =>
      -- the space between two items ends an atom and contributes nothing of its own
      have hend : Token.EndsAtom (' ' :: (renderItems (next :: more) ++ rest)) := Token.endsAtom_cons (by decide) _
      have hspace := hitem hend
      rw [Chunk.kinds_space (by decide), hitems] at hspace
      rw [renderItems_cons_cons, List.append_assoc, List.cons_append, hspace, tokensOf_cons item, List.map_append,
        List.append_assoc]
end

/-- Reading the printed form of a form without floats gives the form back, at any depth of nesting and with any
strings and integers, as long as the names of its symbols read back. -/
theorem read_print (form : Sexp) (hf : form.hasFloat = false) (hs : ∀ name ∈ form.symbolNames, ReadsBack name) :
    Sexp.read form.print = .ok form := by
  have hform : form.Readable := ⟨hf, hs⟩
  have hkinds : Chunk.kinds form.print.toList = form.tokens.map some := by
    rw [print, String.toList_ofList]
    have hk := kinds_render form hform Token.endsAtom_nil
    rwa [List.append_nil, Chunk.kinds_nil, List.append_nil] at hk
  obtain ⟨ts, htokenize, htokens⟩ := exists_tokenize_eq hkinds
  exact read_eq_ok_iff.2 ⟨ts, htokenize, htokens ▸ derives_tokens form hform⟩

/-- A name that goes on after what could be a character literal, a string with quote, backslash and newline, and the
least integer, next to a closing bracket. -/
theorem read_print_nested :
    Sexp.read
        (print (.list [.symbol "?\\ab", .vector [.string "a\"\\\n", .integer Int64.minValue], .quoted (.list [])])) =
      .ok (.list [.symbol "?\\ab", .vector [.string "a\"\\\n", .integer Int64.minValue], .quoted (.list [])]) := by
  apply read_print
  · rfl
  · intro name hn
    simp only [symbolNames, symbolNamesOf, List.append_nil, List.mem_singleton] at hn
    subst hn
    exact ⟨by decide, by rfl, by simp [Token.LooksLikeCharacter]⟩

end LispDoc.Sexp
