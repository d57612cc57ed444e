import LispDoc.Proofs.Sexp.Equality
import LispDoc.Proofs.Sexp.Grammar
import LispDoc.Proofs.Sexp.Tiling

/-!
# Lines of read errors

An error is at a lexeme or at the end of the text, so it starts between two characters (`Reader.place_of_error`), and
its line is counted up to there. Files are read with a line of wrapping in front and one behind. In front the wrapping
takes away as many lines as it adds newlines, and it is never at fault itself. What starts behind the file, at the
closing parenthesis or at the end, is put on the last line of the file (`ReadError.Names`).
-/

namespace LispDoc

/-! ### Counting lines -/

namespace Text

private theorem lineCount_le (cs : List Char) : lineCount cs ≤ cs.count '\n' + 1 := by
  unfold lineCount
  split
  · omega
  · split <;> omega

/-- In front of any character there are fewer newlines than the text has lines. -/
private theorem count_lt_lineCount {before after : List Char} (h : after ≠ []) :
    before.count '\n' < lineCount (before ++ after) := by
  obtain ⟨init, last, rfl⟩ := List.eq_nil_or_concat after |>.resolve_left h
  rw [List.concat_eq_append]
  have hlast : (before ++ (init ++ [last])).getLast? = some last := by
    rw [← List.append_assoc, List.getLast?_concat]
  rw [lineCount, hlast, List.count_append]
  by_cases hnewline : last = '\n'
  · -- the newline at the end is counted itself
    have hpos : 0 < (init ++ [last]).count '\n' := List.count_pos_iff.2 (by simp [hnewline])
    omega
  · have hone : (if last == '\n' then 0 else 1) = 1 := if_neg (by simpa using hnewline)
    simp only [hone]
    omega

private theorem exists_append_of_byteSize_le {as bs cs ds : List Char} (h : as ++ bs = cs ++ ds)
    (hle : byteSize as ≤ byteSize cs) : ∃ m, cs = as ++ m ∧ bs = m ++ ds := by
  rcases List.append_eq_append_iff.1 h with ⟨m, hcs, hbs⟩ | ⟨m, has, hds⟩
  · exact ⟨m, hcs, hbs⟩
  · rw [has, byteSize_append] at hle
    have hm : m = [] := by
      cases m with
      | nil => rfl
      | cons c m =>
        have := c.utf8Size_pos
        rw [byteSize_cons] at hle
        omega
    subst hm
    exact ⟨[], by simp [has], by simpa using hds.symm⟩

end Text

namespace Reader

theorem newlinesBefore_append (before after : List Char) (offset : Nat) :
    newlinesBefore (offset + Text.byteSize before) offset (before ++ after) = before.count '\n' := by
  induction before generalizing offset with
  | nil => cases after <;> simp [newlinesBefore]
  | cons c before ih =>
    have hsize := c.utf8Size_pos
    have hrest := ih (offset + c.utf8Size)
    rw [Nat.add_assoc] at hrest
    rw [List.cons_append, Text.byteSize_cons, newlinesBefore, if_pos (by omega), hrest, List.count_cons]
    omega

/-! ### Places of errors -/

private theorem span_of_tokens_error {ls : List Lexeme} {span : Span} (h : tokens ls = .error span) :
    .junk span ∈ ls := by
  induction ls with
  | nil => cases h
  | cons l ls ih =>
    cases l with
    | junk span' =>
      obtain rfl := Except.error.inj h
      simp
    | token t span' =>
      rw [tokens] at h
      cases hts : tokens ls with
      | error span'' =>
        rw [hts] at h
        obtain rfl := Except.error.inj h
        exact List.mem_cons_of_mem _ (ih hts)
      | ok us =>
        rw [hts] at h
        cases h

theorem tokens_append (us : List (Token × Span)) (ls : List Lexeme) :
    tokens (lexemes us ++ ls) = (tokens ls).map (us ++ ·) := by
  induction us with
  | nil => cases h : tokens ls <;> simp [lexemes, h, Except.map]
  | cons u us ih =>
    show (tokens (lexemes us ++ ls)).map (u :: ·) = _
    rw [ih]
    cases tokens ls <;> rfl

private theorem span_of_finish_error {size : Nat} {state : State} {ts : List (Token × Span)} {fault : Fault}
    {span : Span} (h : finish size state ts = .error (fault, span)) : span ∈ ts.map (·.2) ∨ span.start = size := by
  induction ts generalizing state with
  | nil =>
    cases state with
    | done form => cases h
    | reading frames =>
      obtain ⟨-, rfl⟩ := Prod.mk.inj (Except.error.inj h)
      exact .inr rfl
  | cons t ts ih =>
    rw [finish] at h
    cases hs : step t.1 state with
    | none =>
      rw [hs] at h
      obtain ⟨-, rfl⟩ := Prod.mk.inj (Except.error.inj h)
      exact .inl (by simp)
    | some next =>
      rw [hs] at h
      rcases ih h with hmem | hend
      · exact .inl (List.mem_cons_of_mem _ hmem)
      · exact .inr hend

/-- Behind tokens that have been taken, an error is at one of the other lexemes or at the end. -/
theorem place_of_error {text : List Char} {leading lines : Nat} {e : ReadError}
    (h : readText text leading lines = .error e) {us : List (Token × Span)} {ls : List Lexeme} {state : State}
    (hl : Lexeme.ofChunks 0 (Chunk.scan text) = lexemes us ++ ls)
    (hrun : run (.reading []) (us.map (·.1)) = some state) :
    e.line = lineAt text e.span.start leading lines ∧
      ((∃ l ∈ ls, l.span = e.span) ∨ e.span.start = Text.byteSize text) := by
  unfold readText at h
  rw [hl, tokens_append] at h
  cases hts : tokens ls with
  | error span =>
    rw [hts] at h
    obtain rfl := Except.error.inj h
    exact ⟨rfl, .inl ⟨_, span_of_tokens_error hts, rfl⟩⟩
  | ok ts =>
    rw [hts] at h
    simp only [Except.map, finish_of_run _ ts hrun] at h
    split at h
    · cases h
    · rename_i fault span hf
      obtain rfl := Except.error.inj h
      refine ⟨rfl, ?_⟩
      rcases span_of_finish_error hf with hmem | hend
      · obtain ⟨t, ht, rfl⟩ := List.mem_map.1 hmem
        refine .inl ⟨.token t.1 t.2, ?_, rfl⟩
        rw [eq_lexemes_of_tokens hts]
        exact List.mem_map_of_mem ht
      · exact .inr hend

/-- The lexemes of a wrapped file: the parenthesis, and the others on the lines after it. -/
private theorem exists_lexemes_wrap (content : List Char) :
    ∃ ls, Lexeme.ofChunks 0 (Chunk.scan (wrap content)) = lexemes [(.openParen, ⟨0, 1⟩)] ++ ls ∧
      ∀ l ∈ ls, 2 ≤ l.span.start := by
  have hwrap : wrap content = '(' :: '\n' :: (content ++ ['\n', ')']) := by simp [wrap]
  have hopen : ∀ cs, Chunk.next '(' cs = (.token .openParen ['('], cs) := fun _ => rfl
  have hspace : ∀ cs, Chunk.next '\n' cs =
      (.layout ('\n' :: cs.takeWhile Token.isLayoutSpace), cs.dropWhile Token.isLayoutSpace) := fun _ => rfl
  rw [hwrap, Chunk.scan, hopen, Chunk.scan, hspace]
  refine ⟨_, rfl, fun l hl => ?_⟩
  have hstart := (Lexeme.tiles_ofChunks _ _).le_start l hl
  have hsize := Char.utf8Size_pos '\n'
  simp only [Chunk.text, Text.byteSize_cons] at hstart
  have hone : Char.utf8Size '(' = 1 := rfl
  omega

end Reader

/-! ### The line that an error names -/

/-- The line of an error in a text of which `content` was written by the user and `skipped` bytes come before it. An
error that starts inside is on the line of its start, and one that starts behind is on the last line. -/
structure ReadError.Names (e : ReadError) (skipped : Nat) (content : List Char) : Prop where
  pos : 1 ≤ e.line
  le : e.line ≤ max 1 (Text.lineCount content)
  starts : skipped ≤ e.span.start
  inside : e.span.start < skipped + Text.byteSize content → ∃ before after, content = before ++ after ∧
    e.span.start = skipped + Text.byteSize before ∧ e.line = before.count '\n' + 1
  behind : skipped + Text.byteSize content ≤ e.span.start → e.line = max 1 (Text.lineCount content)

namespace Reader

/-- Lines are counted right where the lines in front are those that are taken off again. -/
private theorem names_of_lineAt {front content back before after : List Char} {e : ReadError}
    (htext : front ++ (content ++ back) = before ++ after) (hstart : e.span.start = Text.byteSize before)
    (hfront : Text.byteSize front ≤ e.span.start)
    (hline : e.line = lineAt (before ++ after) e.span.start (front.count '\n') (Text.lineCount content)) :
    e.Names (Text.byteSize front) content := by
  have hcount := newlinesBefore_append before after 0
  rw [Nat.zero_add] at hcount
  rw [lineAt, hstart, hcount] at hline
  rw [hstart] at hfront
  obtain ⟨passed, rfl, hpassed⟩ := Text.exists_append_of_byteSize_le htext hfront
  rw [List.count_append] at hline
  have hstart : e.span.start = Text.byteSize front + Text.byteSize passed := by rw [hstart, Text.byteSize_append]
  refine ⟨by omega, by omega, by omega, ?_, ?_⟩
  · intro hinside
    obtain ⟨after, hcontent, -⟩ := Text.exists_append_of_byteSize_le hpassed.symm (by omega)
    have hafter : after ≠ [] := by
      rintro rfl
      rw [hcontent, List.append_nil] at hinside
      omega
    have hlt := @Text.count_lt_lineCount passed after hafter
    rw [← hcontent] at hlt
    exact ⟨passed, after, hcontent, hstart, by omega⟩
  · intro hbehind
    obtain ⟨more, rfl, -⟩ := Text.exists_append_of_byteSize_le hpassed (by omega)
    have hle := Text.lineCount_le content
    rw [List.count_append] at hline
    omega

/-- A lexeme starts between two characters, and so does the end. -/
private theorem exists_append_of_place {text : List Char} {span : Span}
    (h : (∃ l ∈ Lexeme.ofChunks 0 (Chunk.scan text), l.span = span) ∨ span.start = Text.byteSize text) :
    ∃ before after, text = before ++ after ∧ span.start = Text.byteSize before := by
  rcases h with ⟨l, hl, rfl⟩ | hend
  · have htiles : Lexeme.Tiles (Text.byteSize []) text (Lexeme.ofChunks 0 (Chunk.scan text)) :=
      Lexeme.tiles_ofChunks 0 text
    obtain ⟨-, piece, after, ⟨before, htext, hstart, -⟩, -⟩ := htiles.places.1 l hl
    exact ⟨before, piece ++ after, htext, hstart.symm⟩
  · exact ⟨text, [], by simp, hend⟩

/-- Errors name the right line if reading gets through the tokens in front of the content. -/
private theorem names_of_error {front content back : List Char} {e : ReadError}
    (h : readText (front ++ (content ++ back)) (front.count '\n') (Text.lineCount content) = .error e)
    {us : List (Token × Span)} {ls : List Lexeme} {state : State}
    (hl : Lexeme.ofChunks 0 (Chunk.scan (front ++ (content ++ back))) = lexemes us ++ ls)
    (hrun : run (.reading []) (us.map (·.1)) = some state) (hstarts : ∀ l ∈ ls, Text.byteSize front ≤ l.span.start) :
    e.Names (Text.byteSize front) content := by
  obtain ⟨hline, hplace⟩ := place_of_error h hl hrun
  have hfront : Text.byteSize front ≤ e.span.start := by
    rcases hplace with ⟨l, hmem, hspan⟩ | hend
    · rw [← hspan]
      exact hstarts l hmem
    · rw [hend, Text.byteSize_append]
      omega
  obtain ⟨before, after, htext, hstart⟩ : ∃ before after,
      front ++ (content ++ back) = before ++ after ∧ e.span.start = Text.byteSize before := by
    refine exists_append_of_place (hplace.imp_left ?_)
    rintro ⟨l, hmem, hspan⟩
    exact ⟨l, by rw [hl]; exact List.mem_append_right _ hmem, hspan⟩
  rw [htext] at hline
  exact names_of_lineAt htext hstart hfront hline

end Reader

open Reader in
/-- Errors name a line of the text that the user wrote, for files as for single forms: the line on which they start, or
the last line if they start behind the text. -/
theorem names_of_readError :
    (∀ (content : String) (e : ReadError), Sexp.readForms content = .error e → e.Names 2 content.toList) ∧
      ∀ (source : String) (e : ReadError), Sexp.read source = .error e → e.Names 0 source.toList := by
  constructor
  · intro content e h
    have hread : readText (wrap content.toList) 1 (Text.lineCount content.toList) = .error e := by
      unfold Sexp.readForms at h
      split at h
      · rename_i e' he'
        rw [he', Except.error.inj h]
      · cases h
      · cases h
    obtain ⟨ls, hl, hstarts⟩ := exists_lexemes_wrap content.toList
    rw [wrap, List.append_assoc] at hread hl
    exact names_of_error hread hl rfl hstarts
  · intro source e h
    have hread : readText ([] ++ (source.toList ++ [])) ([].count '\n') (Text.lineCount source.toList) = .error e := by
      simpa [Sexp.read] using h
    exact @names_of_error [] _ [] e hread [] _ (.reading []) rfl rfl fun _ _ => Nat.zero_le _

attribute [local instance] Sexp.decEq

/-- A string that is not closed starts on the second line and runs over the wrapping; a list that is not closed is
missed on the last line, which the newline at the end does not add to. -/
theorem names_of_readError_unclosed :
    Sexp.readForms "a\n(b \"é\n" = .error ⟨.unrecognized "\"é\n\n)", ⟨7, 13⟩, 2⟩ ∧
      ReadError.Names ⟨.unrecognized "\"é\n\n)", ⟨7, 13⟩, 2⟩ 2 "a\n(b \"é\n".toList ∧
      Sexp.read "(é\n" = .error ⟨.endOfInput, ⟨4, 5⟩, 1⟩ ∧
      ReadError.Names ⟨.endOfInput, ⟨4, 5⟩, 1⟩ 0 "(é\n".toList := by
  have hforms : Sexp.readForms "a\n(b \"é\n" = .error ⟨.unrecognized "\"é\n\n)", ⟨7, 13⟩, 2⟩ := by decide +kernel
  have hform : Sexp.read "(é\n" = .error ⟨.endOfInput, ⟨4, 5⟩, 1⟩ := by decide +kernel
  exact ⟨hforms, names_of_readError.1 _ _ hforms, hform, names_of_readError.2 _ _ hform⟩

end LispDoc
