import LispDoc.Sexp.Token

/-!
# Tokens tile the source

The places of tokens and of pieces that are none follow each other in the source without overlap. What lies between them
is white space and comments (`LayoutBefore`), and what lies inside is how the token is written (`Token.Spelled`).

Every chunk is a beginning of the text that it is cut off from, and of the right form (`Chunk.begins_next`). Along a
source the chunks of layout add up to gaps: the source is a gap, a lexeme, and so on up to the last gap
(`Lexeme.tiles_ofChunks`). Where the lexemes stand is read off from there (`tokenize_tiles`).
-/

namespace LispDoc

/-! ### How tokens are written -/

/-- The texts of a token. A string stands between quotes, and its value is what stands between them with the escapes
resolved; an atom is its own text. -/
def Token.Spelled : Token → List Char → Prop
  | openParen, text => text = ['(']
  | closeParen, text => text = [')']
  | openBracket, text => text = ['[']
  | closeBracket, text => text = [']']
  | quote, text => text = ['\x27']
  | backquote, text => text = ['\x60']
  | comma, text => text = [',']
  | commaAt, text => text = [',', '@']
  | string value, text => ∃ body, text = '"' :: body ++ ['"'] ∧ value = String.ofList (unescape body)
  | character code, text => text = ['?', code] ∨ ∃ c, text = ['?', '\\', c] ∧ code = escapedCharacter c
  | atom value, text => value = String.ofList text

/-- Spaces, tabs, line ends, form feeds and comments in front of a text. A comment runs from a semicolon to the end of
its line: it holds no newline, and a newline or nothing at all comes after it. -/
inductive LayoutBefore : List Char → List Char → Prop where
  | nil (rest : List Char) : LayoutBefore [] rest
  | space {c : Char} {gap rest : List Char} (hc : c ∈ [' ', '\t', '\r', '\n', '\x0c']) (h : LayoutBefore gap rest) :
    LayoutBefore (c :: gap) rest
  | comment {body gap rest : List Char} (hbody : '\n' ∉ body) (hend : ∀ c ∈ (gap ++ rest).head?, c = '\n')
    (h : LayoutBefore gap rest) : LayoutBefore (';' :: body ++ gap) rest

theorem Token.isLayoutSpace_iff {c : Char} : isLayoutSpace c = true ↔ c ∈ [' ', '\t', '\r', '\n', '\x0c'] := by
  simp [isLayoutSpace, or_assoc]

theorem LayoutBefore.append {a b rest : List Char} (ha : LayoutBefore a (b ++ rest)) (hb : LayoutBefore b rest) :
    LayoutBefore (a ++ b) rest := by
  generalize hfollow : b ++ rest = follow at ha
  induction ha with
  | nil => exact hb
  | space hc _ ih => exact .space hc (ih hfollow)
  | @comment body gap follow hbody hend _ ih =>
    rw [List.append_assoc]
    refine .comment hbody ?_ (ih hfollow)
    rwa [List.append_assoc, hfollow]

theorem LayoutBefore.of_spaces {cs : List Char} (h : ∀ c ∈ cs, Token.isLayoutSpace c = true) (rest : List Char) :
    LayoutBefore cs rest := by
  induction cs with
  | nil => exact .nil rest
  | cons c cs ih => exact .space (Token.isLayoutSpace_iff.1 (h c (by simp))) (ih fun d hd => h d (by simp [hd]))

/-! ### Chunks -/

namespace Token

private theorem append_of_stringBody? {cs : List Char} {r : List Char × List Char} (h : stringBody? cs = some r) :
    r.1 ++ '"' :: r.2 = cs := by
  fun_induction stringBody? cs generalizing r with
  | case1 => cases h
  | case2 cs =>
    obtain rfl := Option.some.inj h
    rfl
  | case3 => cases h
  | case4 d ds _ ih =>
    obtain ⟨q, hq, rfl⟩ := Option.map_eq_some_iff.1 h
    simp [ih hq]
  | case5 c cs _ _ ih =>
    obtain ⟨q, hq, rfl⟩ := Option.map_eq_some_iff.1 h
    simp [ih hq]

theorem beforeLoneBackslash_append (cs : List Char) :
    (beforeLoneBackslash cs).1 ++ (beforeLoneBackslash cs).2 = cs := by
  fun_induction beforeLoneBackslash cs with
  | case1 => rfl
  | case2 => rfl
  | case3 d ds ih => simp [ih]
  | case4 c cs _ ih => simp [ih]

theorem character?_cases {cs tail : List Char} {code : Char} (h : character? cs = some (code, tail)) :
    (∃ d ds, cs = '\\' :: d :: ds ∧ tail = ['\\', d] ∧ code = escapedCharacter d) ∨
      ∃ ds, cs = code :: ds ∧ tail = [code] ∧ code ≠ '\\' ∧ Text.isBlank code = false := by
  unfold character? at h
  split at h
  · cases h
  · rename_i c ds
    split at h
    · rename_i hc
      subst hc
      split at h
      · cases h
      · obtain ⟨rfl, rfl⟩ := Prod.mk.inj (Option.some.inj h)
        exact .inl ⟨_, _, rfl, rfl, rfl⟩
    · rename_i hc
      split at h
      · cases h
      · rename_i hblank
        obtain ⟨rfl, rfl⟩ := Prod.mk.inj (Option.some.inj h)
        exact .inr ⟨ds, rfl, rfl, hc, by simpa using hblank⟩

/-- A character literal is a question mark and a beginning of what follows. -/
theorem character?_eq_some {cs tail : List Char} {code : Char} (h : character? cs = some (code, tail)) :
    tail <+: cs ∧ (character code).Spelled ('?' :: tail) := by
  obtain ⟨d, ds, rfl, rfl, rfl⟩ | ⟨ds, rfl, rfl, -, -⟩ := character?_cases h
  · exact ⟨⟨ds, rfl⟩, .inr ⟨d, rfl, rfl⟩⟩
  · exact ⟨⟨ds, rfl⟩, .inl rfl⟩

end Token

namespace Chunk

/-- A chunk in front of a text is what it says. -/
def Sound : Chunk → List Char → Prop
  | layout text, rest => LayoutBefore text rest
  | token t text, _ => t.Spelled text
  | junk _, _ => True

/-- A chunk and a rest that a text is made of, of which the chunk is not empty. -/
structure Begins (cs : List Char) (cut : Chunk × List Char) : Prop where
  append : cut.1.text ++ cut.2 = cs
  ne_nil : cut.1.text ≠ []
  sound : cut.1.Sound cut.2

private theorem begins_nextComma (cs : List Char) : Begins (',' :: cs) (nextComma cs) := by
  unfold nextComma
  split
  · rename_i h
    obtain ⟨ds, rfl⟩ := List.head?_eq_some_iff.1 h
    exact ⟨rfl, by simp [text], rfl⟩
  · exact ⟨rfl, by simp [text], rfl⟩

private theorem begins_nextString (cs : List Char) : Begins ('"' :: cs) (nextString cs) := by
  unfold nextString
  split
  · rename_i body rest h
    refine ⟨?_, by simp [text], body, rfl, rfl⟩
    simp [text, ← Token.append_of_stringBody? h]
  · refine ⟨?_, by simp [text], trivial⟩
    simp [text, Token.beforeLoneBackslash_append]

private theorem begins_nextAtom (c : Char) (cs : List Char) : Begins (c :: cs) (nextAtom c cs) := by
  refine ⟨?_, by simp [nextAtom, text], rfl⟩
  simp [nextAtom, text]

private theorem begins_nextCharacter (cs : List Char) : Begins ('?' :: cs) (nextCharacter cs) := by
  unfold nextCharacter
  split
  · rename_i code tail h
    obtain ⟨hspelling, hspelled⟩ := Token.character?_eq_some h
    split
    · exact begins_nextAtom '?' cs
    · refine ⟨?_, by simp [text], hspelled⟩
      simp only [text, List.cons_append]
      rw [List.prefix_iff_eq_append.1 hspelling]
  · exact begins_nextAtom '?' cs

private theorem begins_punctuation {c : Char} {t : Token} (h : punctuation? c = some t) (cs : List Char) :
    Begins (c :: cs) (token t [c], cs) := by
  refine ⟨rfl, by simp [text], ?_⟩
  unfold punctuation? at h
  split at h
  all_goals first | (obtain rfl := Option.some.inj h; rfl) | cases h

private theorem begins_spaces {c : Char} (hc : Token.isLayoutSpace c = true) (cs : List Char) :
    Begins (c :: cs) (layout (c :: cs.takeWhile Token.isLayoutSpace), cs.dropWhile Token.isLayoutSpace) := by
  refine ⟨by simp [text], by simp [text], LayoutBefore.space (Token.isLayoutSpace_iff.1 hc) (.of_spaces ?_ _)⟩
  exact fun d hd => List.all_eq_true.1 List.all_takeWhile d hd

/-- A comment is cut off in front of a newline or at the end. -/
private theorem begins_comment (cs : List Char) :
    Begins (';' :: cs) (layout (';' :: cs.takeWhile (· != '\n')), cs.dropWhile (· != '\n')) := by
  refine ⟨by simp [text], by simp [text], ?_⟩
  have hbody : '\n' ∉ cs.takeWhile (· != '\n') := by
    intro hmem
    have := List.all_eq_true.1 List.all_takeWhile '\n' hmem
    simp at this
  have hcomment : LayoutBefore (';' :: cs.takeWhile (· != '\n') ++ []) (cs.dropWhile (· != '\n')) := by
    refine .comment hbody ?_ (.nil _)
    intro d hd
    have hstop := List.head?_dropWhile_not (· != '\n') cs
    rw [List.nil_append, Option.mem_def] at hd
    rw [hd] at hstop
    simpa using hstop
  rwa [List.append_nil] at hcomment

theorem begins_next (c : Char) (cs : List Char) : Begins (c :: cs) (next c cs) := by
  unfold next
  split
  · rename_i hc
    exact begins_spaces hc cs
  split
  · rename_i hc
    rw [hc]
    exact begins_comment cs
  split
  · rename_i t ht
    exact begins_punctuation ht cs
  split
  · rename_i hc
    rw [hc]
    exact begins_nextComma cs
  split
  · rename_i hc
    rw [hc]
    exact begins_nextString cs
  split
  · rename_i hc
    rw [hc]
    exact begins_nextCharacter cs
  split
  · exact ⟨rfl, by simp [text], trivial⟩
  · exact begins_nextAtom c cs

end Chunk

/-! ### Lexemes along a source -/

namespace Lexeme

/-- A token is written as it should be; a piece that is none may be anything. -/
def Spelled : Lexeme → List Char → Prop
  | token t _, text => t.Spelled text
  | junk _, _ => True

/-- A source from a byte on: a gap, the text of the first lexeme, and what the other lexemes tile in the same way. After
the last lexeme there is one more gap. -/
inductive Tiles : Nat → List Char → List Lexeme → Prop where
  | last {offset : Nat} {gap : List Char} (hgap : LayoutBefore gap []) : Tiles offset gap []
  | cons {offset : Nat} {gap text rest : List Char} {l : Lexeme} {ls : List Lexeme}
    (hgap : LayoutBefore gap (text ++ rest)) (hne : text ≠ []) (hl : l.Spelled text)
    (hstart : l.span.start = offset + Text.byteSize gap) (hstop : l.span.stop = l.span.start + Text.byteSize text)
    (h : Tiles l.span.stop rest ls) : Tiles offset (gap ++ (text ++ rest)) (l :: ls)

/-- Layout in front makes the first gap longer. -/
theorem Tiles.layout_append {offset : Nat} {text cs : List Char} {ls : List Lexeme} (htext : LayoutBefore text cs)
    (h : Tiles (offset + Text.byteSize text) cs ls) : Tiles offset (text ++ cs) ls := by
  cases h with
  | last hgap =>
    refine .last (LayoutBefore.append ?_ hgap)
    rwa [List.append_nil]
  | cons hgap hne hl hstart hstop h =>
    rw [← List.append_assoc]
    refine .cons (htext.append hgap) hne hl ?_ hstop h
    rw [hstart, Text.byteSize_append, Nat.add_assoc]

/-- A lexeme in front comes after an empty gap. -/
theorem Tiles.lexeme_append {offset : Nat} {text cs : List Char} {l : Lexeme} {ls : List Lexeme} (hne : text ≠ [])
    (hl : l.Spelled text) (hspan : l.span = ⟨offset, offset + Text.byteSize text⟩)
    (h : Tiles (offset + Text.byteSize text) cs ls) : Tiles offset (text ++ cs) (l :: ls) := by
  have hstop : l.span.stop = offset + Text.byteSize text := by rw [hspan]
  rw [← hstop] at h
  exact .cons (.nil _) hne hl (by rw [hspan]; rfl) (by rw [hspan]) h

theorem tiles_ofChunks (offset : Nat) (cs : List Char) : Tiles offset cs (ofChunks offset (Chunk.scan cs)) := by
  fun_induction Chunk.scan cs generalizing offset with
  | case1 => exact .last (.nil [])
  | case2 c cs ih =>
    have hbegins := Chunk.begins_next c cs
    generalize Chunk.next c cs = cut at hbegins ih ⊢
    obtain ⟨chunk, rest⟩ := cut
    have ih := ih (offset + Text.byteSize chunk.text)
    rw [← hbegins.append]
    cases chunk with
    | layout text => exact ih.layout_append hbegins.sound
    | token t text => exact ih.lexeme_append hbegins.ne_nil hbegins.sound rfl
    | junk text => exact ih.lexeme_append hbegins.ne_nil trivial rfl

end Lexeme

/-! ### Places in the source -/

theorem Text.byteSize_pos {cs : List Char} (h : cs ≠ []) : 0 < byteSize cs := by
  obtain ⟨c, cs, rfl⟩ := List.exists_cons_of_ne_nil h
  have := c.utf8Size_pos
  rw [byteSize_cons]
  omega

/-- The span starts and ends between characters of the source; the text is what it holds, and `after` what follows. -/
def Span.Selects (span : Span) (source text after : List Char) : Prop :=
  ∃ before, source = before ++ (text ++ after) ∧ Text.byteSize before = span.start ∧
    Text.byteSize (before ++ text) = span.stop

namespace Lexeme

/-- The places before, between and after lexemes in a source that is looked at from `start` to `stop`. -/
def gaps (start stop : Nat) : List Lexeme → List Span
  | [] => [⟨start, stop⟩]
  | l :: ls => ⟨start, l.span.start⟩ :: gaps l.span.stop stop ls

theorem Tiles.le_start {offset : Nat} {cs : List Char} {ls : List Lexeme} (h : Tiles offset cs ls) :
    ∀ l ∈ ls, offset ≤ l.span.start := by
  induction h with
  | last => simp
  | cons hgap hne hl hstart hstop _ ih =>
    intro k hk
    rcases List.mem_cons.1 hk with rfl | hk
    · omega
    · have := ih k hk
      omega

theorem Tiles.pairwise {offset : Nat} {cs : List Char} {ls : List Lexeme} (h : Tiles offset cs ls) :
    ls.Pairwise fun a b => a.span.stop ≤ b.span.start := by
  induction h with
  | last => exact .nil
  | cons hgap hne hl hstart hstop h ih => exact List.pairwise_cons.2 ⟨h.le_start, ih⟩

/-- The lexemes of what is left of a source, of which `before` has been passed, and the gaps around them. -/
theorem Tiles.places {before cs : List Char} {ls : List Lexeme} (h : Tiles (Text.byteSize before) cs ls) :
    (∀ l ∈ ls, l.span.start < l.span.stop ∧
        ∃ text after, l.span.Selects (before ++ cs) text after ∧ l.Spelled text) ∧
      ∀ gap ∈ gaps (Text.byteSize before) (Text.byteSize (before ++ cs)) ls,
        ∃ text after, gap.Selects (before ++ cs) text after ∧ LayoutBefore text after := by
  generalize hoffset : Text.byteSize before = offset at h
  induction h generalizing before with
  | @last offset gap hgap =>
    refine ⟨by simp, fun g hg => ?_⟩
    obtain rfl := List.mem_singleton.1 hg
    exact ⟨gap, [], ⟨before, by rw [List.append_nil], hoffset, rfl⟩, hgap⟩
  | @cons offset gap text rest l ls hgap hne hl hstart hstop h ih =>
    have hbefore : Text.byteSize (before ++ gap) = l.span.start := by rw [Text.byteSize_append, hoffset, hstart]
    have hpassed : Text.byteSize (before ++ gap ++ text) = l.span.stop := by
      rw [Text.byteSize_append, hbefore, hstop]
    have hpos := Text.byteSize_pos hne
    have hsource : before ++ gap ++ text ++ rest = before ++ (gap ++ (text ++ rest)) := by
      simp only [List.append_assoc]
    obtain ⟨hlexemes, hgaps⟩ := ih hpassed
    rw [hsource] at hlexemes hgaps
    constructor
    · refine List.forall_mem_cons.2 ⟨⟨by omega, text, rest, ⟨before ++ gap, ?_, hbefore, hpassed⟩, hl⟩, hlexemes⟩
      rw [List.append_assoc]
    · exact List.forall_mem_cons.2 ⟨⟨gap, text ++ rest, ⟨before, rfl, hoffset, hbefore⟩, hgap⟩, hgaps⟩

end Lexeme

/-- The tokens of a source, and the pieces that are none, stand at places that are not empty, begin and end between
characters and follow each other without overlap. What is at the place of a token is how the token is written, and what
is before, between and after the places is layout. -/
theorem tokenize_tiles (source : String) :
    (∀ l ∈ tokenize source, l.span.start < l.span.stop ∧
        ∃ text after, l.span.Selects source.toList text after ∧ l.Spelled text) ∧
      (tokenize source).Pairwise (fun a b => a.span.stop ≤ b.span.start) ∧
      ∀ gap ∈ Lexeme.gaps 0 (Text.byteSize source.toList) (tokenize source),
        ∃ text after, gap.Selects source.toList text after ∧ LayoutBefore text after := by
  have htiles : Lexeme.Tiles (Text.byteSize []) source.toList (tokenize source) :=
    Lexeme.tiles_ofChunks 0 source.toList
  obtain ⟨hlexemes, hgaps⟩ := htiles.places
  exact ⟨hlexemes, htiles.pairwise, hgaps⟩

end LispDoc
