import LispDoc.Proofs.Sexp.Boundary

/-!
# Files one after the other

A file is read inside parentheses of its own, each on its own line. The newline before the closing one ends whatever the
file ends with: a comment, an atom, or a question mark and a backslash, of which it becomes the literal. So what a file
contributes does not depend on what comes after it (`Chunk.kinds_append_newline`), and the forms of two files with a
newline between them are the forms of the one and of the other.

The first token of the wrapped text is the parenthesis that was put there, so that the form which is read can only be
the list that it opens.
-/

namespace LispDoc

namespace Token.CutBefore

/-- Of the tokens that reach over a newline and are not strings there is one kind only. -/
private theorem over_newline {t : Token} {cs more : List Char} {ahead : Option Char}
    (h : t.CutBefore (cs ++ '\n' :: more) ahead) (hcs : cs ≠ []) (hmore : '"' ∉ more) :
    t = .character '\n' ∧ cs = ['?', '\\'] := by
  generalize htext : cs ++ '\n' :: more = text at h
  have hnewline : '\n' ∈ text := by simp [← htext]
  obtain ⟨c, cs, rfl⟩ := List.exists_cons_of_ne_nil hcs
  cases h with
  | punctuation h => simp at htext
  | comma h => simp at htext
  | commaAt => simp at hnewline
  | @string body _ h =>
    -- the quote that ends a string would stand behind the newline
    have hlast := congrArg List.getLast? htext
    rw [List.getLast?_append, List.getLast?_concat] at hlast
    have hmem : '"' ∈ '\n' :: more := List.mem_of_getLast? (by simpa using hlast)
    simp [hmore] at hmem
  | @character code tail _ h _ =>
    obtain ⟨rfl, htail⟩ := List.cons.inj htext
    obtain ⟨d, ds, -, rfl, rfl⟩ | ⟨ds, -, rfl, -, hblank⟩ := Token.character?_cases h
    · have hd : d = '\n' := by simpa [eq_comm] using hnewline
      subst hd
      have hcs : cs = ['\\'] := by
        rcases cs with _ | ⟨e, _ | ⟨f, cs⟩⟩
        · simp at htail
        · rw [(List.cons.inj htail).1]
        · simp at htail
      exact ⟨rfl, by rw [hcs]⟩
    · have hcode : code = '\n' := by simpa [eq_comm] using hnewline
      rw [hcode] at hblank
      exact absurd hblank (by decide)
  | atom hname _ _ => exact absurd (hname '\n' hnewline) (by decide)
  | questionMark _ => simp at hnewline
  | loneEscape => simp at hnewline

/-- A token at the start of a text that a newline and the closing parenthesis follow ends inside the text, or takes the
newline and nothing else. -/
private theorem at_seam {t : Token} {cs text rest : List Char} {ahead : Option Char} (h : t.CutBefore text ahead)
    (hcs : cs ≠ []) (happend : cs ++ ['\n', ')'] = text ++ rest) :
    (∃ more, cs = text ++ more ∧ rest = more ++ ['\n', ')']) ∨ (t = .character '\n' ∧ cs = ['?', '\\']) := by
  rcases List.append_eq_append_iff.1 happend with ⟨extra, rfl, hextra⟩ | ⟨more, hmore, hrest⟩
  · rcases extra with _ | ⟨d, extra⟩
    · exact .inl ⟨[], by simp, by simpa using hextra.symm⟩
    · obtain ⟨rfl, hclose⟩ := List.cons.inj hextra
      refine .inr (h.over_newline hcs fun hmem => ?_)
      have hquote : '"' ∈ [')'] := by
        rw [hclose]
        exact List.mem_append_left rest hmem
      simp at hquote
  · exact .inl ⟨more, hmore, hrest⟩

end Token.CutBefore

namespace Chunk

private theorem starts_of_layout {c : Char} {cs text rest : List Char} (h : next c cs = (layout text, rest)) :
    Token.isLayoutSpace c = true ∨ c = ';' := by
  have hatom : ∀ d, nextAtom d cs ≠ (layout text, rest) := fun d hd => by cases hd
  unfold next at h
  split at h
  · exact .inl ‹_›
  split at h
  · exact .inr ‹_›
  split at h
  · cases h
  split at h
  · unfold nextComma at h
    split at h <;> cases h
  split at h
  · unfold nextString at h
    split at h <;> cases h
  split at h
  · unfold nextCharacter at h
    split at h
    · split at h
      · exact absurd h (hatom _)
      · cases h
    · exact absurd h (hatom _)
  split at h
  · cases h
  · exact absurd h (hatom _)

/-- In front of a newline a text contributes its own tokens, whatever follows the newline. -/
theorem kinds_append_newline (cs : List Char) (hjunk : none ∉ kinds (cs ++ ['\n', ')'])) :
    ∃ ts : List Token, ∀ rest, kinds (cs ++ '\n' :: rest) = ts.map some ++ kinds rest := by
  induction hlength : cs.length using Nat.strongRecOn generalizing cs with
  | ind n ih =>
  cases cs with
  | nil => exact ⟨[], fun rest => kinds_space (by decide) rest⟩
  | cons c cs =>
    rw [List.length_cons] at hlength
    rw [List.cons_append] at hjunk
    rcases next_of_kinds hjunk with ⟨text, rest, hnext, -⟩ | ⟨t, text, rest, -, happend, hcut, hkinds⟩
    · rcases starts_of_layout hnext with hspace | rfl
      · rw [kinds_space hspace] at hjunk
        obtain ⟨ts, hts⟩ := ih _ (by omega) cs hjunk rfl
        exact ⟨ts, fun rest => by rw [List.cons_append, kinds_space hspace, hts]⟩
      · by_cases hline : '\n' ∈ cs
        · -- the comment ends inside the text
          obtain ⟨body, more, rfl, hbody⟩ := List.eq_append_cons_of_mem hline
          have hskip : ∀ rest, kinds (';' :: (body ++ '\n' :: more ++ rest)) = kinds (more ++ rest) := by
            intro rest
            rw [List.append_assoc, List.cons_append, kinds_comment hbody]
          rw [hskip] at hjunk
          rw [List.length_append, List.length_cons] at hlength
          obtain ⟨ts, hts⟩ := ih _ (by omega) more hjunk rfl
          exact ⟨ts, fun rest => by rw [List.cons_append, hskip, hts]⟩
        · exact ⟨[], fun rest => kinds_comment hline rest⟩
    · rw [hkinds, List.mem_cons, not_or] at hjunk
      rw [← List.cons_append] at happend
      rcases hcut.at_seam (List.cons_ne_nil c cs) happend with ⟨more, hmore, rfl⟩ | ⟨rfl, hescape⟩
      · have hshorter : more.length < n := by
          have hpos := List.length_pos_iff.2 hcut.ne_nil
          have hsum := congrArg List.length hmore
          rw [List.length_cons, List.length_append] at hsum
          omega
        obtain ⟨ts, hts⟩ := ih _ hshorter more hjunk.2 rfl
        refine ⟨t :: ts, fun rest => ?_⟩
        -- what comes right after the token has not changed
        have hahead : (more ++ '\n' :: rest).head? = (more ++ ['\n', ')']).head? := by cases more <;> rfl
        rw [← hahead] at hcut
        rw [hmore, List.append_assoc, kinds_of_cutBefore hcut, hts]
        rfl
      · refine ⟨[.character '\n'], fun rest => ?_⟩
        have hliteral : Token.CutBefore (.character '\n') ['?', '\\', '\n'] rest.head? :=
          .character rfl fun hall => absurd (hall '\n' (by simp)) (by decide)
        rw [hescape]
        exact kinds_of_cutBefore hliteral

end Chunk

/-! ### Files -/

namespace Reader

/-- The tokens spell the forms one after the other. -/
def Spells (ts : List Token) (forms : List Sexp) : Prop :=
  ∃ parts : List (List Token × Sexp), ts = parts.flatMap (·.1) ∧ forms = parts.map (·.2) ∧
    ∀ part ∈ parts, Derives part.1 part.2

theorem Spells.append {ts us : List Token} {forms forms' : List Sexp} (h : Spells ts forms) (h' : Spells us forms') :
    Spells (ts ++ us) (forms ++ forms') := by
  obtain ⟨parts, rfl, rfl, hparts⟩ := h
  obtain ⟨parts', rfl, rfl, hparts'⟩ := h'
  refine ⟨parts ++ parts', by simp, by simp, ?_⟩
  intro part hpart
  rcases List.mem_append.1 hpart with hpart | hpart
  · exact hparts part hpart
  · exact hparts' part hpart

/-- What starts with an opening parenthesis is a list, and a closing one ends it. -/
private theorem derives_openParen_iff {ts : List Token} {form : Sexp} : Derives (.openParen :: ts) form ↔
    ∃ us forms, ts = us ++ [.closeParen] ∧ form = .list forms ∧ Spells us forms := by
  constructor
  · intro h
    cases h with
    | list parts hparts => exact ⟨_, _, rfl, rfl, parts, rfl, rfl, hparts⟩
  · rintro ⟨us, forms, rfl, rfl, parts, rfl, rfl, hparts⟩
    exact .list parts hparts

private theorem kinds_wrap (content : List Char) :
    Chunk.kinds (wrap content) = some .openParen :: Chunk.kinds (content ++ ['\n', ')']) := by
  have hwrap : wrap content = '(' :: '\n' :: (content ++ ['\n', ')']) := by simp [wrap]
  rw [hwrap, Chunk.kinds_punctuation rfl, Chunk.kinds_space (by decide)]

/-- A file is read as the list that its wrapping opens. -/
private theorem readText_wrap_eq_ok_iff {content : List Char} {leading lines : Nat} {form : Sexp} :
    readText (wrap content) leading lines = .ok form ↔ ∃ ts forms,
      Chunk.kinds (content ++ ['\n', ')']) = (ts ++ [.closeParen]).map some ∧ form = .list forms ∧ Spells ts forms := by
  rw [readText_eq_ok_iff_kinds, kinds_wrap]
  constructor
  · rintro ⟨us, hus, hd⟩
    cases us with
    | nil => cases hus
    | cons u us =>
      obtain ⟨hu, hrest⟩ := List.cons.inj hus
      obtain rfl := Option.some.inj hu
      obtain ⟨ts, forms, rfl, rfl, hspells⟩ := derives_openParen_iff.1 hd
      exact ⟨ts, forms, hrest, rfl, hspells⟩
  · rintro ⟨ts, forms, hkinds, rfl, hspells⟩
    refine ⟨.openParen :: (ts ++ [.closeParen]), by rw [hkinds]; rfl, ?_⟩
    exact derives_openParen_iff.2 ⟨ts, forms, rfl, rfl, hspells⟩

end Reader

namespace Sexp

open Reader

theorem readForms_eq_ok_iff {content : String} {forms : List Sexp} : readForms content = .ok forms ↔
    ∃ ts, Chunk.kinds (content.toList ++ ['\n', ')']) = (ts ++ [.closeParen]).map some ∧ Spells ts forms := by
  have hwrap := @readText_wrap_eq_ok_iff content.toList 1 (Text.lineCount content.toList)
  unfold readForms
  constructor
  · intro h
    split at h
    · cases h
    · rename_i forms' hread
      obtain rfl := Except.ok.inj h
      obtain ⟨ts, forms, hkinds, hforms, hspells⟩ := hwrap.1 hread
      obtain rfl := Sexp.list.inj hforms
      exact ⟨ts, hkinds, hspells⟩
    · -- the form is a list in any case
      rename_i form hlist hread
      obtain ⟨ts, forms, -, hforms, -⟩ := hwrap.1 hread
      exact absurd hforms (hlist forms)
  · rintro ⟨ts, hkinds, hspells⟩
    rw [hwrap.2 ⟨ts, forms, hkinds, rfl, hspells⟩]

/-- A file that can be read contributes the tokens of its forms, whatever follows the newline behind it. -/
private theorem exists_spells_of_readForms {content : String} {forms : List Sexp} (h : readForms content = .ok forms) :
    ∃ ts, Spells ts forms ∧
      ∀ rest, Chunk.kinds (content.toList ++ '\n' :: rest) = ts.map some ++ Chunk.kinds rest := by
  obtain ⟨ts, hts, hspells⟩ := readForms_eq_ok_iff.1 h
  have hjunk : none ∉ Chunk.kinds (content.toList ++ ['\n', ')']) := by simp [hts]
  obtain ⟨us, hus⟩ := Chunk.kinds_append_newline content.toList hjunk
  -- in front of the closing parenthesis these are the tokens that the file was read by
  have hclose := hus [')']
  rw [hts, Chunk.kinds_punctuation rfl, Chunk.kinds_nil, List.map_append] at hclose
  have hsame : ts = us := (List.map_inj_right fun _ _ => Option.some.inj).1 (List.append_cancel_right hclose)
  exact ⟨ts, hspells, hsame ▸ hus⟩

/-- The forms of two files with a newline between them are those of the first and then those of the second. What a file
is read as is always a list, and its items are the forms. -/
theorem readForms_append_newline :
    (∀ (a b : String) (fa fb : List Sexp), readForms a = .ok fa → readForms b = .ok fb →
        readForms (a ++ "\n" ++ b) = .ok (fa ++ fb)) ∧
      ∀ content : String,
        (∀ form, readText (wrap content.toList) 1 (Text.lineCount content.toList) = .ok form →
            ∃ forms, form = .list forms) ∧
          ∀ forms, readForms content = .ok forms ↔
            readText (wrap content.toList) 1 (Text.lineCount content.toList) = .ok (.list forms) := by
  constructor
  · intro a b fa fb ha hb
    obtain ⟨ts, hfa, hts⟩ := exists_spells_of_readForms ha
    obtain ⟨us, hus, hfb⟩ := readForms_eq_ok_iff.1 hb
    refine readForms_eq_ok_iff.2 ⟨ts ++ us, ?_, hfa.append hfb⟩
    have htext : (a ++ "\n" ++ b).toList ++ ['\n', ')'] = a.toList ++ '\n' :: (b.toList ++ ['\n', ')']) := by
      simp
    rw [htext, hts, hus]
    simp
  · intro content
    have hwrap := @readText_wrap_eq_ok_iff content.toList 1 (Text.lineCount content.toList)
    constructor
    · intro form h
      obtain ⟨-, forms, -, hform, -⟩ := hwrap.1 h
      exact ⟨forms, hform⟩
    · intro forms
      rw [readForms_eq_ok_iff, hwrap]
      constructor
      · rintro ⟨ts, hkinds, hspells⟩
        exact ⟨ts, forms, hkinds, rfl, hspells⟩
      · rintro ⟨ts, forms', hkinds, hforms, hspells⟩
        obtain rfl := Sexp.list.inj hforms
        exact ⟨ts, hkinds, hspells⟩

/-- A literal that takes the newline, and a comment at the end. -/
theorem readForms_append_newline_literal :
    readForms ("x ?\\" ++ "\n" ++ "'y ; end") = .ok [.symbol "x", .integer 10, .quoted (.symbol "y")] := by
  have ha : readForms "x ?\\" = .ok [.symbol "x", .integer 10] := by with_unfolding_all rfl
  have hb : readForms "'y ; end" = .ok [.quoted (.symbol "y")] := by with_unfolding_all rfl
  exact readForms_append_newline.1 _ _ _ _ ha hb

end Sexp

end LispDoc
