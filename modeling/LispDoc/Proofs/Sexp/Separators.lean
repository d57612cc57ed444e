import LispDoc.Proofs.Sexp.Boundary

/-!
# Layout between tokens

Which layout stands between the tokens of a source does not matter, and neither does whether there is any. The texts of
the tokens are read off the source by their places (`Lexeme.map_textIn_ofChunks`). Written one after the other with
separators of any kind between them (`weave`), they are cut into the same tokens again (`tokenize_weave`): a token of
which more source followed stays the same token before white space, and the last one stays the same at the end.
-/

namespace LispDoc

/-- Spaces, tabs, line ends, form feeds and comments that end with their line. -/
inductive Filler : List Char → Prop where
  | nil : Filler []
  | space {c : Char} {gap : List Char} (hc : c ∈ [' ', '\t', '\r', '\n', '\x0c']) (h : Filler gap) : Filler (c :: gap)
  | comment {body gap : List Char} (hbody : '\n' ∉ body) (h : Filler gap) : Filler (';' :: body ++ '\n' :: gap)

/-- What may be put between any two tokens: a character of white space, and after it as much layout as one likes. -/
def Separator (sep : List Char) : Prop :=
  ∃ c gap, sep = c :: gap ∧ c ∈ [' ', '\t', '\r', '\n', '\x0c'] ∧ Filler gap

/-- Texts in order, with the separators between them. -/
def weave : List (List Char) → List (List Char) → List Char
  | text :: texts, sep :: seps => text ++ (sep ++ weave texts seps)
  | texts, _ => texts.flatten

theorem Filler.kinds_append {gap : List Char} (h : Filler gap) (rest : List Char) :
    Chunk.kinds (gap ++ rest) = Chunk.kinds rest := by
  induction h with
  | nil => rfl
  | space hc _ ih => rw [List.cons_append, Chunk.kinds_space (Token.isLayoutSpace_iff.2 hc), ih]
  | comment hbody _ ih =>
    simp only [List.append_assoc, List.cons_append]
    rw [Chunk.kinds_comment hbody, ih]

theorem Separator.kinds_append {sep : List Char} (h : Separator sep) (rest : List Char) :
    Chunk.kinds (sep ++ rest) = Chunk.kinds rest := by
  obtain ⟨c, gap, rfl, hc, hgap⟩ := h
  rw [List.cons_append, Chunk.kinds_space (Token.isLayoutSpace_iff.2 hc), hgap.kinds_append]

/-! ### The texts of tokens -/

namespace Chunk

/-- The text of a chunk that is not layout. -/
def lexemeText? : Chunk → Option (List Char)
  | layout _ => none
  | token _ text => some text
  | junk text => some text

/-- The texts of the chunks of a source that are not layout. -/
def lexemeTexts (cs : List Char) : List (List Char) := (scan cs).filterMap lexemeText?

@[simp] theorem lexemeTexts_nil : lexemeTexts [] = [] := by rw [lexemeTexts, scan]; rfl

theorem lexemeTexts_cons (c : Char) (cs : List Char) :
    lexemeTexts (c :: cs) = (lexemeText? (next c cs).1).toList ++ lexemeTexts (next c cs).2 := by
  rw [lexemeTexts, scan, List.filterMap_cons]
  cases lexemeText? (next c cs).1 <;> rfl

private theorem length_lexemeTexts (cs : List Char) : (lexemeTexts cs).length = (kinds cs).length := by
  unfold lexemeTexts kinds
  induction scan cs with
  | nil => rfl
  | cons chunk chunks ih =>
    cases chunk with
    | layout text => exact ih
    | token t text => exact congrArg (· + 1) ih
    | junk text => exact congrArg (· + 1) ih

/-- The tokens of a text without junk, written with separators between them, are the same tokens. -/
private theorem kinds_weave {cs : List Char} (hjunk : none ∉ kinds cs) {seps : List (List Char)}
    (hlength : seps.length = (lexemeTexts cs).length - 1) (hseps : ∀ sep ∈ seps, Separator sep) :
    kinds (weave (lexemeTexts cs) seps) = kinds cs := by
  induction cs using scan.induct generalizing seps with
  | case1 => simp [weave]
  | case2 c cs ih =>
    rcases next_of_kinds hjunk with ⟨text, rest, hnext, hkinds⟩ | ⟨t, text, rest, hnext, -, hcut, hkinds⟩
    · have htexts : lexemeTexts (c :: cs) = lexemeTexts rest := by
        rw [lexemeTexts_cons, hnext]
        rfl
      rw [htexts] at hlength ⊢
      rw [hkinds] at hjunk ⊢
      simp only [hnext] at ih
      exact ih hjunk hlength hseps
    · have htexts : lexemeTexts (c :: cs) = text :: lexemeTexts rest := by
        rw [lexemeTexts_cons, hnext]
        rfl
      rw [htexts, List.length_cons, Nat.add_sub_cancel] at hlength
      rw [htexts, hkinds]
      rw [hkinds, List.mem_cons, not_or] at hjunk
      simp only [hnext] at ih
      cases seps with
      | nil =>
        -- the last token, which nothing follows any more
        have hnone : kinds rest = [] := by
          rw [← List.length_eq_zero_iff, ← length_lexemeTexts, ← hlength]
          rfl
        have hlast : lexemeTexts rest = [] := List.length_eq_zero_iff.1 hlength.symm
        have hend := @kinds_of_cutBefore t text [] hcut.at_end
        rw [hlast, hnone]
        simpa [weave] using hend
      | cons sep seps =>
        rw [List.length_cons] at hlength
        have hsep := hseps sep (by simp)
        -- more tokens follow, so that the separator takes the place of some character
        obtain ⟨d, hd⟩ : ∃ d, rest.head? = some d := by
          cases rest with
          | nil => simp at hlength
          | cons d rest => exact ⟨d, rfl⟩
        rw [hd] at hcut
        have ih := @ih hjunk.2 seps (by omega) fun s hs => hseps s (by simp [hs])
        have hspace : t.CutBefore text (sep ++ weave (lexemeTexts rest) seps).head? := by
          obtain ⟨e, gap, rfl, he, -⟩ := hsep
          exact hcut.before_space (Token.isLayoutSpace_iff.2 he)
        rw [weave, kinds_of_cutBefore hspace, hsep.kinds_append, ih]

end Chunk

/-! ### Places -/

namespace Reader

private theorem slice_of_le {span : Span} {offset : Nat} (h : span.stop ≤ offset) (cs : List Char) :
    slice span offset cs = [] := by
  induction cs generalizing offset with
  | nil => rfl
  | cons c cs ih =>
    have houtside : ¬ offset < span.stop := by omega
    simp [slice, houtside, ih (Nat.le_trans h (Nat.le_add_right offset c.utf8Size))]

private theorem slice_inside {span : Span} {offset : Nat} {text : List Char} (hstart : span.start ≤ offset)
    (hstop : span.stop = offset + Text.byteSize text) (after : List Char) :
    slice span offset (text ++ after) = text := by
  induction text generalizing offset with
  | nil => exact slice_of_le (by simp [hstop]) after
  | cons c text ih =>
    have hsize := c.utf8Size_pos
    rw [Text.byteSize_cons] at hstop
    have hinside : offset < span.stop := by omega
    have hrest := @ih (offset + c.utf8Size) (by omega) (by omega)
    simp [slice, hstart, hinside, hrest]

/-- What a span selects is what stands between its ends. -/
private theorem slice_of_selects {span : Span} {source text after : List Char} (h : span.Selects source text after) :
    slice span 0 source = text := by
  obtain ⟨before, rfl, hstart, hstop⟩ := h
  rw [Text.byteSize_append, hstart] at hstop
  -- the characters in front are passed over one by one
  have hpass : ∀ offset, span.start = offset + Text.byteSize before →
      slice span offset (before ++ (text ++ after)) = text := by
    clear hstart
    induction before with
    | nil => exact fun offset hoffset => slice_inside (by simp [hoffset]) (by simpa [hoffset] using hstop.symm) after
    | cons c before ih =>
      intro offset hoffset
      have hsize := c.utf8Size_pos
      rw [Text.byteSize_cons] at hoffset
      have houtside : ¬ span.start ≤ offset := by omega
      have hrest := ih (offset + c.utf8Size) (by omega)
      simpa [slice, houtside] using hrest
  exact hpass 0 (by omega)

end Reader

namespace Lexeme

/-- The text at the place of a lexeme. -/
def textIn (source : List Char) (l : Lexeme) : List Char := Reader.slice l.span 0 source

theorem map_textIn_ofChunks (before cs : List Char) :
    (ofChunks (Text.byteSize before) (Chunk.scan cs)).map (textIn (before ++ cs)) = Chunk.lexemeTexts cs := by
  induction cs using Chunk.scan.induct generalizing before with
  | case1 => rw [Chunk.scan, Chunk.lexemeTexts_nil]; rfl
  | case2 c cs ih =>
    have hbegins := Chunk.begins_next c cs
    rw [Chunk.scan, Chunk.lexemeTexts_cons]
    generalize Chunk.next c cs = cut at hbegins ih ⊢
    obtain ⟨chunk, rest⟩ := cut
    have ih := ih (before ++ chunk.text)
    rw [List.append_assoc, hbegins.append, Text.byteSize_append] at ih
    have hselects : (⟨Text.byteSize before, Text.byteSize before + Text.byteSize chunk.text⟩ : Span).Selects
        (before ++ (c :: cs)) chunk.text rest := ⟨before, by rw [hbegins.append], rfl, Text.byteSize_append _ _⟩
    have htext := Reader.slice_of_selects hselects
    cases chunk with
    | layout text => exact ih
    | token t text => exact congr (congrArg List.cons htext) ih
    | junk text => exact congr (congrArg List.cons htext) ih

end Lexeme

/-- Layout between tokens is irrelevant. If a source is cut into tokens and layout only, then the texts of its tokens
with any separators between them are cut into the same tokens. -/
theorem tokenize_weave (source : String) (hjunk : ∀ l ∈ tokenize source, l.token? ≠ none) (seps : List (List Char))
    (hlength : seps.length = (tokenize source).length - 1) (hseps : ∀ sep ∈ seps, Separator sep) :
    (tokenize (String.ofList (weave ((tokenize source).map (Lexeme.textIn source.toList)) seps))).map Lexeme.token? =
      (tokenize source).map Lexeme.token? := by
  have htexts : (tokenize source).map (Lexeme.textIn source.toList) = Chunk.lexemeTexts source.toList :=
    Lexeme.map_textIn_ofChunks [] source.toList
  have htokens : ∀ s : String, (tokenize s).map Lexeme.token? = Chunk.kinds s.toList :=
    fun s => (Chunk.kinds_eq_map_token? s.toList).symm
  have hkinds : none ∉ Chunk.kinds source.toList := by
    rw [← htokens]
    intro hmem
    obtain ⟨l, hl, hnone⟩ := List.mem_map.1 hmem
    exact hjunk l hl hnone
  rw [htokens, htokens, String.toList_ofList, htexts]
  refine Chunk.kinds_weave hkinds ?_ hseps
  rw [hlength, ← htexts, List.length_map]

/-- Tokens that the next character could change: a comma before a comment and an at sign, literals of a closing
parenthesis and of a quote, and a question mark and backslash at the end. -/
theorem tokenize_weave_marks :
    (tokenize (String.ofList (weave ((tokenize "(,;c\n@y ?\\)?\"?\\").map
        (Lexeme.textIn "(,;c\n@y ?\\)?\"?\\".toList)) [[' '], ['\n'], [' ', ';', '@', '\n'], ['\t'], ['\r', ' ']]))).map
        Lexeme.token? =
      [some .openParen, some .comma, some (.atom "@y"), some (.character ')'), some (.character '"'),
        some (.atom "?\\")] := by
  have htokens : (tokenize "(,;c\n@y ?\\)?\"?\\").map Lexeme.token? =
      [some .openParen, some .comma, some (.atom "@y"), some (.character ')'), some (.character '"'),
        some (.atom "?\\")] := by with_unfolding_all rfl
  rw [← htokens]
  apply tokenize_weave
  · intro l hl hnone
    have hmem := List.mem_map_of_mem (f := Lexeme.token?) hl
    rw [htokens, hnone] at hmem
    simp at hmem
  · have hlength := congrArg List.length htokens
    rw [List.length_map] at hlength
    rw [hlength]
    rfl
  · have hspace : ∀ c, c ∈ [' ', '\t', '\r', '\n', '\x0c'] → Separator [c] := fun c hc => ⟨c, [], rfl, hc, .nil⟩
    simp only [List.forall_mem_cons]
    refine ⟨hspace _ (by decide), hspace _ (by decide), ?_, hspace _ (by decide), ?_, by simp⟩
    · exact ⟨' ', _, rfl, by decide, @Filler.comment ['@'] [] (by decide) .nil⟩
    · exact ⟨'\r', _, rfl, by decide, .space (by decide) .nil⟩

end LispDoc
