import LispDoc.Proofs.Sexp.Grammar
import LispDoc.Sexp.Printer

/-!
# How source is cut into tokens

What a text is read as is decided by the tokens of its chunks alone (`Chunk.kinds`, `exists_tokenize_eq`). Here is
what each sort of chunk contributes when it stands in front of a text: punctuation and white space whatever follows, an
atom if what follows cannot be part of it, and a string in the form in which it is printed.

An atom that starts with a question mark must be longer than the character literal that starts there: `?`, `?a` and
`?\a` are not atoms of their own (`Token.LooksLikeCharacter`).
-/

namespace LispDoc

namespace Token

/-- A question mark alone, or as much as a character literal needs. -/
def LooksLikeCharacter (name : List Char) : Prop :=
  name = ['?'] ∨ (∃ c, name = ['?', c]) ∨ ∃ c, name = ['?', '\\', c]

/-- The text cannot continue an atom. -/
def EndsAtom (rest : List Char) : Prop := ∀ c ∈ rest.head?, isConstituent c = false

theorem endsAtom_nil : EndsAtom [] := by simp [EndsAtom]

theorem endsAtom_cons {c : Char} (h : isConstituent c = false) (rest : List Char) : EndsAtom (c :: rest) := by
  simpa [EndsAtom] using h

theorem takeWhile_of_endsAtom {rest : List Char} (h : EndsAtom rest) : rest.takeWhile isConstituent = [] := by
  cases rest with
  | nil => rfl
  | cons c rest => simp [h c (by simp)]

theorem dropWhile_of_endsAtom {rest : List Char} (h : EndsAtom rest) : rest.dropWhile isConstituent = rest := by
  cases rest with
  | nil => rfl
  | cons c rest => simp [h c (by simp)]

private theorem isBlank_of_isConstituent {c : Char} (h : isConstituent c = true) : Text.isBlank c = false := by
  simp only [isConstituent, Bool.and_eq_true, Bool.not_eq_true'] at h
  exact h.1

/-- Constituents are told from each of the characters that end atoms. -/
private theorem ne_of_isConstituent {c d : Char} (h : isConstituent c = true) (hd : isConstituent d = false) :
    c ≠ d := by
  intro he
  rw [he, hd] at h
  exact Bool.noConfusion h

end Token

namespace Chunk

/-- What a chunk contributes: nothing, a token, or a piece that is none. -/
def kind? : Chunk → Option (Option Token)
  | layout _ => none
  | token t _ => some (some t)
  | junk _ => some none

/-- The tokens of a text in order, with `none` for pieces that are no tokens. -/
def kinds (cs : List Char) : List (Option Token) := (scan cs).filterMap kind?

@[simp] theorem kinds_nil : kinds [] = [] := by rw [kinds, scan]; rfl

theorem kinds_cons (c : Char) (cs : List Char) :
    kinds (c :: cs) = (kind? (next c cs).1).toList ++ kinds (next c cs).2 := by
  rw [kinds, scan, List.filterMap_cons]
  cases kind? (next c cs).1 <;> rfl

/-! ### Punctuation and white space -/

theorem next_punctuation {c : Char} {t : Token} (h : punctuation? c = some t) (cs : List Char) :
    next c cs = (token t [c], cs) := by
  have hspace : Token.isLayoutSpace c = false ∧ c ≠ ';' := by
    unfold punctuation? at h
    split at h <;> first | decide | simp at h
  rw [next, h]
  simp [hspace]

theorem kinds_punctuation {c : Char} {t : Token} (h : punctuation? c = some t) (cs : List Char) :
    kinds (c :: cs) = some t :: kinds cs := by
  rw [kinds_cons, next_punctuation h]
  rfl

theorem next_of_isLayoutSpace {c : Char} (h : Token.isLayoutSpace c = true) (cs : List Char) :
    next c cs = (layout (c :: cs.takeWhile Token.isLayoutSpace), cs.dropWhile Token.isLayoutSpace) := by
  rw [next, if_pos h]

theorem kinds_space {c : Char} (h : Token.isLayoutSpace c = true) (cs : List Char) : kinds (c :: cs) = kinds cs := by
  have hskip : ∀ d ds, Token.isLayoutSpace d = true → kinds (d :: ds) = kinds (ds.dropWhile Token.isLayoutSpace) := by
    intro d ds hd
    rw [kinds_cons, next_of_isLayoutSpace hd]
    rfl
  rw [hskip c cs h]
  cases cs with
  | nil => rfl
  | cons d ds =>
    by_cases hd : Token.isLayoutSpace d = true
    · rw [List.dropWhile_cons_of_pos hd, hskip d ds hd]
    · rw [List.dropWhile_cons_of_neg hd]

/-! ### Atoms -/

theorem nextAtom_append {c : Char} {cs rest : List Char} (hcs : ∀ d ∈ cs, Token.isConstituent d = true)
    (hr : Token.EndsAtom rest) :
    nextAtom c (cs ++ rest) = (token (.atom (String.ofList (c :: cs))) (c :: cs), rest) := by
  unfold nextAtom
  rw [List.takeWhile_append_of_pos hcs, Token.takeWhile_of_endsAtom hr, List.append_nil,
    List.dropWhile_append_of_pos hcs, Token.dropWhile_of_endsAtom hr]

/-- A run of constituents that is longer than the character literal in front of it is an atom. -/
theorem nextCharacter_append {cs rest : List Char} (hcs : ∀ d ∈ cs, Token.isConstituent d = true)
    (hc : ¬ Token.LooksLikeCharacter ('?' :: cs)) (hr : Token.EndsAtom rest) :
    nextCharacter (cs ++ rest) = nextAtom '?' (cs ++ rest) := by
  have hrun : ((cs ++ rest).takeWhile Token.isConstituent).length = cs.length := by
    rw [List.takeWhile_append_of_pos hcs, Token.takeWhile_of_endsAtom hr, List.append_nil]
  have hwins : ∀ length, length < cs.length → atomWins length (cs ++ rest) = true := by
    intro length hlt
    simp [atomWins, hrun, hlt]
  unfold nextCharacter
  rcases cs with _ | ⟨c, _ | ⟨d, ds⟩⟩
  · exact absurd (.inl rfl) hc
  · exact absurd (.inr (.inl ⟨c, rfl⟩)) hc
  -- a literal takes one character, or two after a backslash, and the run is longer than either
  · by_cases hb : c = '\\'
    · subst hb
      rcases ds with _ | ⟨e, es⟩
      · exact absurd (.inr (.inr ⟨d, rfl⟩)) hc
      · have hchar : Token.character? ('\\' :: d :: e :: es ++ rest) = some (Token.escapedCharacter d, ['\\', d]) := rfl
        rw [hchar]
        simp only [hwins 2 (by simp), List.length_cons, List.length_nil, if_true]
    · have hblank := Token.isBlank_of_isConstituent (hcs c (by simp))
      have hchar : Token.character? (c :: d :: ds ++ rest) = some (c, [c]) := by
        simp [Token.character?, hb, hblank]
      rw [hchar]
      simp only [hwins 1 (by simp), List.length_cons, List.length_nil, if_true]

theorem next_of_isConstituent {c : Char} (h : Token.isConstituent c = true) (cs : List Char) :
    next c cs = if c = '?' then nextCharacter cs else nextAtom c cs := by
  have hne : ∀ {d : Char}, Token.isConstituent d = false → c ≠ d := Token.ne_of_isConstituent h
  have hspace : Token.isLayoutSpace c = false := by
    simp only [Token.isLayoutSpace, Bool.or_eq_false_iff, beq_eq_false_iff_ne]
    exact ⟨⟨⟨⟨hne (by decide), hne (by decide)⟩, hne (by decide)⟩, hne (by decide)⟩, hne (by decide)⟩
  have hpunct : punctuation? c = none := by
    unfold punctuation?
    split <;> first | rfl | exact absurd rfl (hne (by decide))
  have hsemi : c ≠ ';' := hne (by decide)
  have hcomma : c ≠ ',' := hne (by decide)
  have hquote : c ≠ '"' := hne (by decide)
  unfold next
  simp [hspace, hsemi, hpunct, hcomma, hquote, Token.isBlank_of_isConstituent h]

theorem next_atom {c : Char} {cs rest : List Char} (hname : ∀ d ∈ c :: cs, Token.isConstituent d = true)
    (hc : ¬ Token.LooksLikeCharacter (c :: cs)) (hr : Token.EndsAtom rest) :
    next c (cs ++ rest) = (token (.atom (String.ofList (c :: cs))) (c :: cs), rest) := by
  have hcs : ∀ d ∈ cs, Token.isConstituent d = true := fun d hd => hname d (by simp [hd])
  have hnext : next c (cs ++ rest) = nextAtom c (cs ++ rest) := by
    rw [next_of_isConstituent (hname c (by simp))]
    split
    · rename_i hq
      subst hq
      exact nextCharacter_append hcs hc hr
    · rfl
  rw [hnext, nextAtom_append hcs hr]

/-- An atom is one token when nothing that follows can continue it. -/
theorem kinds_atom {name rest : List Char} (hne : name ≠ []) (hname : ∀ c ∈ name, Token.isConstituent c = true)
    (hc : ¬ Token.LooksLikeCharacter name) (hr : Token.EndsAtom rest) :
    kinds (name ++ rest) = some (.atom (String.ofList name)) :: kinds rest := by
  rcases name with _ | ⟨c, cs⟩
  · exact absurd rfl hne
  rw [List.cons_append, kinds_cons, next_atom hname hc hr]
  rfl

/-! ### Strings -/

theorem stringBody?_plain {c : Char} (hq : c ≠ '"') (hb : c ≠ '\\') (cs : List Char) :
    Token.stringBody? (c :: cs) = (Token.stringBody? cs).map fun r => (c :: r.1, r.2) := by
  rw [Token.stringBody?.eq_def]
  simp [hq, hb]

private theorem unescape_plain {c : Char} (hb : c ≠ '\\') (cs : List Char) :
    Token.unescape (c :: cs) = c :: Token.unescape cs := by
  rw [Token.unescape.eq_def]
  simp [hb]

/-- The printed inside of a string runs up to the quote that closes it, and its escapes resolve to the text. -/
private theorem stringBody?_render (text rest : List Char) :
    Token.stringBody? (text.flatMap Sexp.renderChar ++ '"' :: rest) = some (text.flatMap Sexp.renderChar, rest) ∧
      Token.unescape (text.flatMap Sexp.renderChar) = text := by
  induction text with
  | nil =>
    refine ⟨?_, by simp [Token.unescape]⟩
    rw [List.flatMap_nil, List.nil_append, Token.stringBody?.eq_def]
    rfl
  | cons c text ih =>
    rw [List.flatMap_cons]
    by_cases hq : c = '"'
    · subst hq
      have hrender : Sexp.renderChar '"' = ['\\', '"'] := rfl
      simp [hrender, Token.stringBody?, Token.unescape, Token.escaped, ih.1, ih.2]
    · by_cases hb : c = '\\'
      · subst hb
        have hrender : Sexp.renderChar '\\' = ['\\', '\\'] := rfl
        simp [hrender, Token.stringBody?, Token.unescape, Token.escaped, ih.1, ih.2]
      · have hrender : Sexp.renderChar c = [c] := by simp [Sexp.renderChar, hq, hb]
        rw [hrender, List.singleton_append, List.cons_append, stringBody?_plain hq hb, unescape_plain hb, ih.1, ih.2]
        exact ⟨rfl, rfl⟩

theorem kinds_string (text rest : List Char) :
    kinds ('"' :: (text.flatMap Sexp.renderChar ++ '"' :: rest)) =
      some (.string (String.ofList text)) :: kinds rest := by
  obtain ⟨hbody, htext⟩ := stringBody?_render text rest
  have hnext : ∀ cs, next '"' cs = nextString cs := fun _ => rfl
  rw [kinds_cons, hnext, nextString, hbody]
  simp [kind?, htext]

end Chunk

/-! ### Lexemes -/

namespace Lexeme

def token? : Lexeme → Option Token
  | token t _ => some t
  | junk _ => none

private theorem map_token?_ofChunks (offset : Nat) (chunks : List Chunk) :
    (ofChunks offset chunks).map token? = chunks.filterMap Chunk.kind? := by
  induction chunks generalizing offset with
  | nil => rfl
  | cons chunk chunks ih =>
    rw [List.filterMap_cons]
    cases chunk with
    | layout text => exact ih _
    | token t text => exact congrArg _ (ih _)
    | junk text => exact congrArg _ (ih _)

private theorem exists_lexemes {ls : List Lexeme} {ts : List Token} (h : ls.map token? = ts.map some) :
    ∃ us, ls = Reader.lexemes us ∧ us.map (·.1) = ts := by
  induction ls generalizing ts with
  | nil =>
    rw [List.map_nil, eq_comm, List.map_eq_nil_iff] at h
    exact ⟨[], rfl, h.symm⟩
  | cons l ls ih =>
    cases ts with
    | nil => simp at h
    | cons t ts =>
      simp only [List.map_cons, List.cons.injEq] at h
      obtain ⟨us, rfl, rfl⟩ := ih h.2
      cases l with
      | junk span => simp [token?] at h
      | token t' span => exact ⟨(t', span) :: us, rfl, by simpa [token?] using h.1⟩

end Lexeme

theorem Chunk.kinds_eq_map_token? (cs : List Char) :
    kinds cs = (Lexeme.ofChunks 0 (scan cs)).map Lexeme.token? := by
  rw [Lexeme.map_token?_ofChunks, kinds]

/-- A text whose chunks are tokens or layout is read by its tokens. -/
theorem exists_tokenize_eq {source : String} {ts : List Token} (h : Chunk.kinds source.toList = ts.map some) :
    ∃ us, tokenize source = Reader.lexemes us ∧ us.map (·.1) = ts :=
  Lexeme.exists_lexemes (by rw [tokenize, Lexeme.map_token?_ofChunks]; exact h)

/-- What a text is read as is decided by the tokens of its chunks. -/
theorem Reader.readText_eq_ok_iff_kinds {text : List Char} {leading lines : Nat} {form : Sexp} :
    readText text leading lines = .ok form ↔ ∃ ts : List Token, Chunk.kinds text = ts.map some ∧ Derives ts form := by
  rw [readText_eq_ok_iff, Chunk.kinds_eq_map_token?]
  constructor
  · rintro ⟨us, hl, hd⟩
    refine ⟨us.map (·.1), ?_, hd⟩
    rw [hl, lexemes, List.map_map, List.map_map]
    rfl
  · rintro ⟨ts, hts, hd⟩
    obtain ⟨us, hl, rfl⟩ := Lexeme.exists_lexemes hts
    exact ⟨us, hl, hd⟩

end LispDoc
