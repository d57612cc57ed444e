import LispDoc.Proofs.Sexp.Lexing
import LispDoc.Proofs.Sexp.Tiling

/-!
# Where tokens end

How far a token reaches is decided by its text and by the one character that comes next, if any (`Token.CutBefore`):

* a comma must not be followed by an at sign, and an atom not by a constituent;
* a character literal made of constituents must not be followed by one either, nor by white space beyond ASCII;
* a question mark is an atom of its own only before white space or at the end, and `?\` only at the end.

`Chunk.cutBefore_of_next` reads this off the scanner and `Chunk.next_of_cutBefore` gives it back, so a token stays the
same token in front of another text that starts alike. Before white space every token does that was not the end of its
text (`Token.CutBefore.before_space`), and at the end every token does (`Token.CutBefore.at_end`).
-/

namespace LispDoc

namespace Token

/-- In front of `ahead` the text is cut off as the token. -/
inductive CutBefore : Token → List Char → Option Char → Prop where
  | punctuation {c : Char} {t : Token} {ahead : Option Char} (h : Chunk.punctuation? c = some t) : CutBefore t [c] ahead
  | comma {ahead : Option Char} (h : ahead ≠ some '@') : CutBefore .comma [','] ahead
  | commaAt {ahead : Option Char} : CutBefore .commaAt [',', '@'] ahead
  | string {body : List Char} {ahead : Option Char} (h : stringBody? (body ++ ['"']) = some (body, [])) :
    CutBefore (.string (String.ofList (unescape body))) ('"' :: body ++ ['"']) ahead
  | character {code : Char} {tail : List Char} {ahead : Option Char} (h : character? tail = some (code, tail))
    (hahead : (∀ c ∈ tail, isConstituent c = true) →
      ∀ d ∈ ahead, isConstituent d = false ∧ (Text.isBlank d = true → d.toNat < 128)) :
    CutBefore (.character code) ('?' :: tail) ahead
  | atom {c : Char} {cs : List Char} {ahead : Option Char} (hname : ∀ d ∈ c :: cs, isConstituent d = true)
    (hchar : ¬ LooksLikeCharacter (c :: cs)) (hahead : ∀ d ∈ ahead, isConstituent d = false) :
    CutBefore (.atom (String.ofList (c :: cs))) (c :: cs) ahead
  | questionMark {ahead : Option Char} (hahead : ∀ d ∈ ahead, Text.isBlank d = true) :
    CutBefore (.atom (String.ofList ['?'])) ['?'] ahead
  | loneEscape : CutBefore (.atom (String.ofList ['?', '\\'])) ['?', '\\'] none

private theorem isBlank_of_isLayoutSpace {c : Char} (h : isLayoutSpace c = true) :
    Text.isBlank c = true ∧ c.toNat < 128 := by
  simp only [isLayoutSpace, Bool.or_eq_true, beq_iff_eq] at h
  rcases h with (((rfl | rfl) | rfl) | rfl) | rfl <;> decide

private theorem isConstituent_of_isBlank {c : Char} (h : Text.isBlank c = true) : isConstituent c = false := by
  simp [isConstituent, h]

namespace CutBefore

theorem ne_nil {t : Token} {text : List Char} {ahead : Option Char} (h : t.CutBefore text ahead) : text ≠ [] := by
  cases h <;> simp

/-- White space may take the place of whatever follows a token. -/
theorem before_space {t : Token} {text : List Char} {c d : Char} (h : t.CutBefore text (some c))
    (hd : isLayoutSpace d = true) : t.CutBefore text (some d) := by
  obtain ⟨hblank, hascii⟩ := isBlank_of_isLayoutSpace hd
  have hend := isConstituent_of_isBlank hblank
  cases h with
  | punctuation h => exact .punctuation h
  | comma h =>
    refine .comma fun he => ?_
    rw [Option.some.inj he] at hblank
    exact absurd hblank (by decide)
  | commaAt => exact .commaAt
  | string h => exact .string h
  | character h _ => exact .character h (by simp [hend, hascii])
  | atom hname hchar _ => exact .atom hname hchar (by simp [hend])
  | questionMark _ => exact .questionMark (by simp [hblank])

/-- Whatever follows a token may be missing. -/
theorem at_end {t : Token} {text : List Char} {ahead : Option Char} (h : t.CutBefore text ahead) :
    t.CutBefore text none := by
  cases h with
  | punctuation h => exact .punctuation h
  | comma h => exact .comma (by simp)
  | commaAt => exact .commaAt
  | string h => exact .string h
  | character h _ => exact .character h (by simp)
  | atom hname hchar _ => exact .atom hname hchar (by simp)
  | questionMark _ => exact .questionMark (by simp)
  | loneEscape => exact .loneEscape

end CutBefore

/-- What follows the closing quote has no part in a string. -/
theorem stringBody?_append {cs : List Char} {r : List Char × List Char} (h : stringBody? cs = some r)
    (rest : List Char) : stringBody? (r.1 ++ '"' :: rest) = some (r.1, rest) := by
  fun_induction stringBody? cs generalizing r with
  | case1 => cases h
  | case2 cs =>
    obtain rfl := Option.some.inj h
    rw [List.nil_append, stringBody?.eq_def]
    rfl
  | case3 => cases h
  | case4 d ds _ ih =>
    obtain ⟨q, hq, rfl⟩ := Option.map_eq_some_iff.1 h
    have hinner := ih hq
    simp [stringBody?, hinner]
  | case5 c cs hquote hescape ih =>
    obtain ⟨q, hq, rfl⟩ := Option.map_eq_some_iff.1 h
    have hinner := ih hq
    rw [List.cons_append, Chunk.stringBody?_plain hquote hescape, hinner]
    rfl

/-- A literal reads the same when it is all that there is, or when something follows it. -/
theorem character?_append {cs tail : List Char} {code : Char} (h : character? cs = some (code, tail))
    (rest : List Char) : character? (tail ++ rest) = some (code, tail) := by
  obtain ⟨d, ds, rfl, rfl, rfl⟩ | ⟨ds, rfl, rfl, hescape, hblank⟩ := character?_cases h
  · rfl
  · simp [character?, hescape, hblank]

/-- Only at the end or before white space does a question mark start no literal. -/
theorem character?_eq_none {cs : List Char} (h : character? cs = none) :
    cs = ['\\'] ∨ ∀ c ∈ cs.head?, Text.isBlank c = true := by
  unfold character? at h
  split at h
  · exact .inr (by simp)
  · rename_i c ds
    split at h
    · rename_i hc
      subst hc
      split at h
      · exact .inl rfl
      · cases h
    · split at h
      · rename_i hblank
        exact .inr (by simpa using hblank)
      · cases h

end Token

namespace Chunk

/-! ### What the scanner cuts off -/

private theorem token_inj {t t' : Token} {text text' rest rest' : List Char}
    (h : (token t text, rest) = (token t' text', rest')) : t = t' ∧ text = text' ∧ rest = rest' := by
  obtain ⟨hchunk, hrest⟩ := Prod.mk.inj h
  obtain ⟨ht, htext⟩ := Chunk.token.inj hchunk
  exact ⟨ht, htext, hrest⟩

private theorem isDelimiter_cases {c : Char} (h : Token.isDelimiter c = true) :
    c = ';' ∨ (∃ t, punctuation? c = some t) ∨ c = ',' ∨ c = '"' := by
  simp only [Token.isDelimiter, Bool.or_eq_true, beq_iff_eq] at h
  rcases h with (((((((rfl | rfl) | rfl) | rfl) | rfl) | rfl) | rfl) | rfl) | rfl <;> simp [punctuation?]

/-- White space that is no layout is junk. -/
private theorem next_of_isBlank {c : Char} (h : Text.isBlank c = true) (hspace : Token.isLayoutSpace c = false)
    (cs : List Char) : next c cs = (junk [c], cs) := by
  have hne : ∀ {d : Char}, Text.isBlank d = false → c ≠ d := by
    rintro d hd rfl
    exact Bool.noConfusion (h.symm.trans hd)
  have hpunct : punctuation? c = none := by
    unfold punctuation?
    split <;> first | rfl | exact absurd rfl (hne (by decide))
  have hsemi : c ≠ ';' := hne (by decide)
  have hcomma : c ≠ ',' := hne (by decide)
  have hquote : c ≠ '"' := hne (by decide)
  have hmark : c ≠ '?' := hne (by decide)
  unfold next
  simp [hspace, hsemi, hpunct, hcomma, hquote, hmark, h]

/-- Where a token starts: with its own character, or as an atom or character literal. -/
private theorem next_token_cases {c : Char} {cs text rest : List Char} {t : Token}
    (h : next c cs = (token t text, rest)) :
    (punctuation? c = some t ∧ text = [c] ∧ rest = cs) ∨
      (c = ',' ∧ nextComma cs = (token t text, rest)) ∨
      (c = '"' ∧ nextString cs = (token t text, rest)) ∨
      (Token.isConstituent c = true ∧
        (if c = '?' then nextCharacter cs else nextAtom c cs) = (token t text, rest)) := by
  by_cases hc : Token.isConstituent c = true
  · rw [next_of_isConstituent hc] at h
    exact .inr (.inr (.inr ⟨hc, h⟩))
  by_cases hblank : Text.isBlank c = true
  · by_cases hspace : Token.isLayoutSpace c = true
    · rw [next_of_isLayoutSpace hspace] at h
      cases h
    · rw [next_of_isBlank hblank (by simpa using hspace)] at h
      cases h
  have hdelim : Token.isDelimiter c = true := by
    simpa [Token.isConstituent, hblank] using hc
  obtain rfl | ⟨t', ht'⟩ | rfl | rfl := isDelimiter_cases hdelim
  · cases h
  · rw [next_punctuation ht'] at h
    obtain ⟨rfl, rfl, rfl⟩ := token_inj h
    exact .inl ⟨ht', rfl, rfl⟩
  · exact .inr (.inl ⟨rfl, h⟩)
  · exact .inr (.inr (.inl ⟨rfl, h⟩))

private theorem isConstituent_of_mem_takeWhile {cs : List Char} {d : Char} (h : d ∈ cs.takeWhile Token.isConstituent) :
    Token.isConstituent d = true :=
  List.all_eq_true.1 List.all_takeWhile d h

private theorem isConstituent_of_mem_run {c : Char} {cs : List Char} (hc : Token.isConstituent c = true) :
    ∀ d ∈ c :: cs.takeWhile Token.isConstituent, Token.isConstituent d = true :=
  List.forall_mem_cons.2 ⟨hc, fun _ hd => isConstituent_of_mem_takeWhile hd⟩

private theorem endsAtom_dropWhile (cs : List Char) : Token.EndsAtom (cs.dropWhile Token.isConstituent) := by
  intro d hd
  have hstop := List.head?_dropWhile_not Token.isConstituent cs
  rw [Option.mem_def.1 hd] at hstop
  simpa using hstop

/-- An atom after a question mark is longer than the literal that starts there, unless none does. -/
private theorem cutBefore_nextAtom_mark {cs : List Char}
    (hlonger : ∀ code tail, Token.character? cs = some (code, tail) →
      tail.length < (cs.takeWhile Token.isConstituent).length) :
    (Token.atom (String.ofList ('?' :: cs.takeWhile Token.isConstituent))).CutBefore
      ('?' :: cs.takeWhile Token.isConstituent) (cs.dropWhile Token.isConstituent).head? := by
  cases hliteral : Token.character? cs with
  | none =>
    rcases Token.character?_eq_none hliteral with rfl | hblank
    · exact .loneEscape
    · have hend : Token.EndsAtom cs := fun d hd => Token.isConstituent_of_isBlank (hblank d hd)
      rw [Token.takeWhile_of_endsAtom hend, Token.dropWhile_of_endsAtom hend]
      exact .questionMark hblank
  | some literal =>
    obtain ⟨code, tail⟩ := literal
    have hlength := hlonger code tail hliteral
    refine .atom (isConstituent_of_mem_run (by decide)) ?_ (endsAtom_dropWhile cs)
    -- the run is longer than a literal of one character, and than one of a backslash and a character
    obtain ⟨d, ds, rfl, rfl, -⟩ | ⟨ds, rfl, rfl, hescape, -⟩ := Token.character?_cases hliteral
    · rintro (he | ⟨c, he⟩ | ⟨c, he⟩) <;> simp [(List.cons.inj he).2] at hlength
    · rintro (he | ⟨c, he⟩ | ⟨c, he⟩)
      · simp [(List.cons.inj he).2] at hlength
      · simp [(List.cons.inj he).2] at hlength
      · have hrun := (List.cons.inj he).2
        rw [List.takeWhile_cons] at hrun
        split at hrun
        · exact hescape (List.cons.inj hrun).1
        · cases hrun

/-- A literal loses against the atom when all of it is constituents and one more comes, or white space beyond ASCII. -/
theorem atomWins_append_iff {tail rest : List Char} : atomWins tail.length (tail ++ rest) = true ↔
    (∀ c ∈ tail, Token.isConstituent c = true) ∧
      ∃ d ∈ rest.head?, Token.isConstituent d = true ∨ (Text.isBlank d = true ∧ 128 ≤ d.toNat) := by
  by_cases hall : ∀ c ∈ tail, Token.isConstituent c = true
  · have hrun : (tail ++ rest).takeWhile Token.isConstituent = tail ++ rest.takeWhile Token.isConstituent :=
      List.takeWhile_append_of_pos hall
    simp only [atomWins, hrun, List.length_append, List.drop_left, Bool.or_eq_true, decide_eq_true_eq,
      Bool.and_eq_true, beq_iff_eq]
    rw [and_iff_right hall]
    cases rest with
    | nil => simp [startsWithWideBlank]
    | cons d rest => by_cases hd : Token.isConstituent d = true <;> simp [startsWithWideBlank, hd]
  · have hne : (tail.takeWhile Token.isConstituent).length ≠ tail.length := by
      intro hlength
      have hself := (List.takeWhile_prefix Token.isConstituent).eq_of_length hlength
      exact hall fun c hc => isConstituent_of_mem_takeWhile (by rwa [hself])
    have hle := (List.takeWhile_prefix (l := tail) Token.isConstituent).length_le
    have hrun : (tail ++ rest).takeWhile Token.isConstituent = tail.takeWhile Token.isConstituent := by
      rw [List.takeWhile_append, if_neg hne]
    constructor
    · intro hwins
      simp only [atomWins, hrun, Bool.or_eq_true, decide_eq_true_eq, Bool.and_eq_true, beq_iff_eq] at hwins
      omega
    · rintro ⟨h, -⟩
      exact absurd h hall

private theorem cutBefore_nextCharacter {cs text rest : List Char} {t : Token}
    (h : nextCharacter cs = (token t text, rest))
    (hwide : startsWithWideBlank rest = false) : t.CutBefore text rest.head? := by
  unfold nextCharacter at h
  split at h
  · rename_i code tail hliteral
    split at h
    · rename_i hwins
      obtain ⟨rfl, rfl, rfl⟩ := token_inj h
      refine cutBefore_nextAtom_mark fun code' tail' hliteral' => ?_
      rw [hliteral] at hliteral'
      obtain ⟨rfl, rfl⟩ := Prod.mk.inj (Option.some.inj hliteral')
      -- of equal length the atom would need white space beyond ASCII behind it
      simp only [atomWins, Bool.or_eq_true, decide_eq_true_eq, Bool.and_eq_true, beq_iff_eq] at hwins
      rcases hwins with hlonger | ⟨hequal, hblank⟩
      · exact hlonger
      · have hdrop : cs.drop tail.length = cs.dropWhile Token.isConstituent := by
          rw [hequal]
          conv => lhs; arg 2; rw [← List.takeWhile_append_dropWhile (p := Token.isConstituent) (l := cs)]
          exact List.drop_left
        rw [hdrop, hwide] at hblank
        cases hblank
    · rename_i hloses
      obtain ⟨rfl, rfl, rfl⟩ := token_inj h
      refine .character ?_ ?_
      · simpa using Token.character?_append hliteral []
      · intro hall d hd
        obtain ⟨rest, rfl⟩ := (Token.character?_eq_some hliteral).1
        rw [List.drop_left] at hd
        have hnone : ¬ (Token.isConstituent d = true ∨ (Text.isBlank d = true ∧ 128 ≤ d.toNat)) :=
          fun h => hloses (atomWins_append_iff.2 ⟨hall, d, hd, h⟩)
        simp only [not_or, Bool.not_eq_true, not_and, Nat.not_le] at hnone
        exact hnone
  · rename_i hliteral
    obtain ⟨rfl, rfl, rfl⟩ := token_inj h
    exact cutBefore_nextAtom_mark fun code tail h => by simp [hliteral] at h

theorem cutBefore_of_next {c : Char} {cs text rest : List Char} {t : Token} (h : next c cs = (token t text, rest))
    (hwide : startsWithWideBlank rest = false) : t.CutBefore text rest.head? := by
  obtain ⟨ht, rfl, rfl⟩ | ⟨-, hcut⟩ | ⟨-, hcut⟩ | ⟨hc, hcut⟩ := next_token_cases h
  · exact .punctuation ht
  · unfold nextComma at hcut
    split at hcut
    · obtain ⟨rfl, rfl, rfl⟩ := token_inj hcut
      exact .commaAt
    · rename_i hat
      obtain ⟨rfl, rfl, rfl⟩ := token_inj hcut
      exact .comma hat
  · unfold nextString at hcut
    split at hcut
    · rename_i body rest' hbody
      obtain ⟨rfl, rfl, rfl⟩ := token_inj hcut
      exact .string (Token.stringBody?_append hbody [])
    · cases hcut
  · split at hcut
    · exact cutBefore_nextCharacter hcut hwide
    · rename_i hmark
      obtain ⟨rfl, rfl, rfl⟩ := token_inj hcut
      refine .atom (isConstituent_of_mem_run hc) ?_ (endsAtom_dropWhile cs)
      rintro (he | ⟨d, he⟩ | ⟨d, he⟩) <;> exact hmark (List.cons.inj he).1

/-! ### Cutting it off again -/

theorem next_of_cutBefore {t : Token} {c : Char} {cs rest : List Char} (h : t.CutBefore (c :: cs) rest.head?) :
    next c (cs ++ rest) = (token t (c :: cs), rest) := by
  generalize hahead : rest.head? = ahead at h
  cases h with
  | punctuation h => exact next_punctuation h rest
  | comma h =>
    subst hahead
    show nextComma rest = _
    rw [nextComma, if_neg h]
  | commaAt => rfl
  | @string body _ h =>
    have hbody : Token.stringBody? (body ++ '"' :: rest) = some (body, rest) := Token.stringBody?_append h rest
    show nextString (body ++ ['"'] ++ rest) = _
    rw [List.append_assoc, List.singleton_append, nextString, hbody]
    rfl
  | character h hend =>
    show nextCharacter (cs ++ rest) = _
    have hloses : ¬ atomWins cs.length (cs ++ rest) = true := by
      rw [atomWins_append_iff]
      rintro ⟨hall, d, hd, hwins⟩
      obtain ⟨hconstituent, hascii⟩ := hend hall d (hahead ▸ hd)
      rcases hwins with hwins | ⟨hblank, hwide⟩
      · rw [hwins] at hconstituent
        cases hconstituent
      · have := hascii hblank
        omega
    rw [nextCharacter, Token.character?_append h rest]
    simp only [hloses, List.drop_left]
    rfl
  | atom hname hchar hend => exact next_atom hname hchar fun d hd => hend d (hahead ▸ hd)
  | questionMark hblank =>
    have hend : Token.EndsAtom rest := fun d hd => Token.isConstituent_of_isBlank (hblank d (hahead ▸ hd))
    have hliteral : Token.character? rest = none := by
      cases rest with
      | nil => rfl
      | cons d rest =>
        have hd := hblank d (by rw [← hahead]; rfl)
        have hescape : d ≠ '\\' := fun he => absurd (he ▸ hd) (by decide)
        simp [Token.character?, hescape, hd]
    show nextCharacter rest = _
    rw [nextCharacter, hliteral]
    exact @nextAtom_append '?' [] rest (by simp) hend
  | loneEscape =>
    obtain rfl := List.head?_eq_none_iff.1 hahead
    rfl

theorem kinds_of_cutBefore {t : Token} {text rest : List Char} (h : t.CutBefore text rest.head?) :
    kinds (text ++ rest) = some t :: kinds rest := by
  obtain ⟨c, cs, rfl⟩ := List.exists_cons_of_ne_nil h.ne_nil
  rw [List.cons_append, kinds_cons, next_of_cutBefore h]
  rfl

/-! ### Texts without junk -/

private theorem startsWithWideBlank_of_kinds {cs : List Char} (h : none ∉ kinds cs) :
    startsWithWideBlank cs = false := by
  rw [Bool.eq_false_iff]
  intro hwide
  cases cs with
  | nil => cases hwide
  | cons c cs =>
    have hwide : Text.isBlank c = true ∧ 128 ≤ c.toNat := by simpa [startsWithWideBlank] using hwide
    have hspace : Token.isLayoutSpace c = false := by
      rw [Bool.eq_false_iff]
      intro hspace
      have := (Token.isBlank_of_isLayoutSpace hspace).2
      omega
    rw [kinds_cons, next_of_isBlank hwide.1 hspace] at h
    exact h (by simp [kind?])

/-- The first chunk of a text without junk is layout, or a token that ends where the rest begins; the rest is without
junk as well. -/
theorem next_of_kinds {c : Char} {cs : List Char} (h : none ∉ kinds (c :: cs)) :
    (∃ text rest, next c cs = (layout text, rest) ∧ kinds (c :: cs) = kinds rest) ∨
      ∃ t text rest, next c cs = (token t text, rest) ∧ c :: cs = text ++ rest ∧ t.CutBefore text rest.head? ∧
        kinds (c :: cs) = some t :: kinds rest := by
  have hkinds := kinds_cons c cs
  have hbegins := begins_next c cs
  cases hnext : next c cs with
  | mk chunk rest =>
    rw [hnext] at hkinds hbegins
    cases chunk with
    | layout text => exact .inl ⟨text, rest, rfl, hkinds⟩
    | token t text =>
      have hrest : none ∉ kinds rest := fun hmem => h (by rw [hkinds]; exact List.mem_append_right _ hmem)
      have hcut := cutBefore_of_next hnext (startsWithWideBlank_of_kinds hrest)
      exact .inr ⟨t, text, rest, rfl, hbegins.append.symm, hcut, hkinds⟩
    | junk text => exact absurd (by rw [hkinds]; simp [kind?]) h

/-- A comment with the newline that ends it contributes nothing. -/
theorem kinds_comment {body : List Char} (hbody : '\n' ∉ body) (rest : List Char) :
    kinds (';' :: (body ++ '\n' :: rest)) = kinds rest := by
  have hskip : ∀ c ∈ body, (c != '\n') = true := by
    intro c hc
    rw [bne_iff_ne]
    rintro rfl
    exact hbody hc
  have hrest : (body ++ '\n' :: rest).dropWhile (· != '\n') = '\n' :: rest := by
    rw [List.dropWhile_append_of_pos hskip, List.dropWhile_cons_of_neg (by simp)]
  have hnext : ∀ cs, next ';' cs = (layout (';' :: cs.takeWhile (· != '\n')), cs.dropWhile (· != '\n')) := fun _ => rfl
  rw [kinds_cons, hnext, hrest]
  exact kinds_space (by decide) rest

end Chunk

end LispDoc
