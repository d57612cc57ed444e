import LispDoc.Proofs.Markup.MetaVariables

/-!
# Words that introduce references

In most branches of the markup of help buffers a word says what the quoted text after it refers to. Such a branch does
not look at the character before the word. So the word may be the end of a longer one: an interface is taken for a face.

* In a text every reference is introduced by a whole word exactly if each longer word that ends like one, in front of
  quoted text, lies within a match that started before (`wholeWords_iff`).
* At the start of a text the end of a longer word introduces a reference, whatever the word, unless it is an address and
  the whole word is in upper case, and so a meta-variable (`helpNodes_longer_word`).
-/

namespace LispDoc

/-! ### White space -/

/-- White space beyond ASCII. -/
def Text.blankRanges : List CharRange :=
  [(0x85, 0x85), (0xA0, 0xA0), (0x1680, 0x1680), (0x2000, 0x200A), (0x2028, 0x2029), (0x202F, 0x202F), (0x205F, 0x205F),
    (0x3000, 0x3000)]

theorem Text.isWord_of_isBlank {c : Char} (h : isBlank c = true) : isWord c = false := by
  simp only [isBlank, Bool.or_eq_true, Bool.and_eq_true, decide_eq_true_eq, beq_iff_eq] at h
  unfold isWord
  split
  · have hmem : c.toNat ∈ [9, 10, 11, 12, 13, 0x20] := by
      simp only [List.mem_cons, List.not_mem_nil, or_false]
      omega
    have hall : ∀ n ∈ [9, 10, 11, 12, 13, 0x20], ((Char.ofNat n).isAlphanum || Char.ofNat n == '_') = false := by
      decide
    simpa using hall _ hmem
  · -- no range of word characters meets a range of white space
    have hapart : wordRanges.all fun r => blankRanges.all fun b => r.2 < b.1 || b.2 < r.1 := by decide +kernel
    by_contra hword
    obtain ⟨r, hr, hle⟩ := CharRange.any_eq_true.1 (by simpa using hword)
    have hfar := List.all_eq_true.1 hapart r hr
    simp only [blankRanges, List.all_cons, List.all_nil, Bool.and_true, Bool.and_eq_true, Bool.or_eq_true,
      decide_eq_true_eq] at hfar
    omega

theorem Markup.isUpperRun_of_isBlank {c : Char} (h : Text.isBlank c = true) : isUpperRun c = false := by
  by_contra hrun
  have hhyphen : c = '-' := by
    by_contra hne
    have := (isWord_iff_of_isUpperRun (by simpa using hrun)).2 hne
    simp [Text.isWord_of_isBlank h] at this
  rw [hhyphen] at h
  exact absurd h (by decide)

/-! ### Words in front of quoted text -/

namespace Branch

/-- The branches in which a word says what is referred to. -/
def introduced : List Branch := [info, command, function, option, var, face, symbol, url]

/-- How the first of the words that introduce quoted text in a branch may be spelled. -/
def spellings (b : Branch) : List (List Char) :=
  (b.leads.filterMap List.head?).flatMap fun word => [word.toList, capitalized word.toList]

/-- The place of a branch in the order of precedence. -/
def rank (b : Branch) : Nat := all.idxOf b

private theorem pairwise_rank : all.Pairwise fun a b => a.rank < b.rank := by decide

private theorem rank_lt_of_mem_introduced : ∀ b ∈ introduced, b.rank < metaVariable.rank := by decide

private theorem isKeyword_of_mem_leads :
    ∀ b ∈ introduced, ∀ words ∈ b.leads, ∀ word ∈ words, Markup.isKeyword word = true := by
  decide

private theorem isWord_of_mem_spellings {b : Branch} (hb : b ∈ introduced) {w : List Char} (hw : w ∈ b.spellings) :
    ∀ c ∈ w, Text.isWord c = true := by
  have hall : ∀ b ∈ introduced, ∀ w ∈ b.spellings, w.all Text.isWord = true := by decide
  exact List.all_eq_true.1 (hall b hb w hw)

/-- No word that introduces quoted text is the end of another one. -/
private theorem eq_of_suffix_spelling : ∀ b ∈ introduced, ∀ b' ∈ introduced, ∀ w ∈ b.spellings, ∀ w' ∈ b'.spellings,
    w <:+ w' → b = b' ∧ w = w' := by decide

/-- Addresses are the references whose word is in upper case. -/
private theorem eq_url_iff {b : Branch} (hb : b ∈ introduced) {w : List Char} (hw : w ∈ b.spellings) :
    b = url ↔ ∀ c ∈ w, Markup.isUpperRun c = true := by
  have hall : ∀ b ∈ introduced, ∀ w ∈ b.spellings, b = url ↔ w.all Markup.isUpperRun = true := by decide
  exact (hall b hb w hw).trans List.all_eq_true

private theorem length_of_mem_spellings : ∀ b ∈ introduced, ∀ w ∈ b.spellings, 3 ≤ w.length := by decide

private theorem matches_of_mem_introduced {b : Branch} (hb : b ∈ introduced) {before : Option Char} {text : List Char}
    {c : Capture} : b.Matches before text c ↔ Quotes b.leads text c := by
  cases b with
  | emphasis => simp [introduced] at hb
  | metaVariable => simp [introduced] at hb
  | _ => exact .rfl

/-- The role of a reference that a word introduces. -/
private theorem nodes_of_mem_introduced {b : Branch} (hb : b ∈ introduced) (c : Capture) :
    ∃ r, b.nodes c = [.plain (String.ofList c.lead), .reference r] ∧ r.role ≠ .symbol := by
  cases b with
  | emphasis => simp [introduced] at hb
  | literal => simp [introduced] at hb
  | metaVariable => simp [introduced] at hb
  | _ => exact ⟨_, rfl, by simp⟩

private theorem mem_introduced_of_mem_nodes {b : Branch} {c : Capture} {r : Reference} (h : .reference r ∈ b.nodes c)
    (hrole : r.role ≠ .symbol) : b ∈ introduced := by
  cases b with
  | emphasis => simp [nodes] at h
  | metaVariable => simp [nodes] at h
  | literal =>
    simp only [nodes] at h
    split at h
    · obtain rfl : r = _ := by simpa using h
      exact absurd rfl hrole
    · simp at h
  | _ => decide

/-- Quoted text that a word introduces starts with this word, and white space follows. -/
private theorem exists_spelling_of_quotes {b : Branch} (hb : b ∈ introduced) {text : List Char} {c : Capture}
    (h : Quotes b.leads text c) :
    ∃ w ∈ b.spellings, ∃ (blank : Char) (rest : List Char), text = w ++ blank :: rest ∧ Text.isBlank blank = true := by
  obtain ⟨⟨words, hwords, hlead⟩, -, -, rest, rfl⟩ := h
  generalize c.lead = lead at hlead
  cases hlead with
  | nil => exact absurd hwords (by revert b; decide)
  | @cons word words spelling blank lead spelled blank_ne blanks more =>
    obtain ⟨first, blank, rfl⟩ := List.exists_cons_of_ne_nil blank_ne
    refine ⟨spelling, ?_, first, blank ++ lead ++ Markup.quoteValue c.value ++ rest, by simp, blanks _ (by simp)⟩
    have hword : word ∈ b.leads.filterMap List.head? := List.mem_filterMap.2 ⟨_, hwords, rfl⟩
    exact List.mem_flatMap.2 ⟨word, hword, by simpa using spelled⟩

/-- This word is all of the word that the text starts with. -/
private theorem takeWhile_mem_spellings {b : Branch} (hb : b ∈ introduced) {text : List Char} {c : Capture}
    (h : Quotes b.leads text c) : text.takeWhile Text.isWord ∈ b.spellings := by
  obtain ⟨w, hw, blank, rest, rfl, hblank⟩ := exists_spelling_of_quotes hb h
  rw [List.takeWhile_append_of_pos (isWord_of_mem_spellings hb hw),
    List.takeWhile_cons_of_neg (by simp [Text.isWord_of_isBlank hblank]), List.append_nil]
  exact hw

private theorem isWordAt_head?_of_quotes {b : Branch} (hb : b ∈ introduced) {text : List Char} {c : Capture}
    (h : Quotes b.leads text c) : Text.isWordAt text.head? = true := by
  obtain ⟨w, hw, blank, rest, rfl, -⟩ := exists_spelling_of_quotes hb h
  have hne : w ≠ [] := List.length_pos_iff.1 (Nat.lt_of_lt_of_le (by decide) (length_of_mem_spellings b hb w hw))
  rw [List.head?_append_of_ne_nil _ hne, List.head?_eq_some_head hne]
  exact isWord_of_mem_spellings hb hw _ (List.head_mem hne)

/-- A match that starts with a word character is made by a branch of upper case words or one with words in front. -/
private theorem mem_introduced_or_eq {b : Branch} {before : Option Char} {text : List Char} {c : Capture}
    (h : b.Matches before text c) (hword : Text.isWordAt text.head? = true) : b ∈ introduced ∨ b = metaVariable := by
  cases b with
  | emphasis =>
    obtain ⟨-, -, rest, rfl⟩ := h
    exact absurd (show Text.isWordAt (some '*') = true from hword) (by decide)
  | literal =>
    obtain ⟨⟨words, hwords, hlead⟩, -, -, rest, rfl⟩ := h
    obtain rfl : words = [] := by simpa [leads] using hwords
    generalize c.lead = lead at hlead hword
    cases hlead with
    | nil => exact absurd (show Text.isWordAt (some '\x60') = true from hword) (by decide)
  | metaVariable => exact .inr rfl
  | _ => exact .inl (by decide)

end Branch

/-- The text starts with quoted text that a word introduces. -/
def Cites (text : List Char) : Prop := ∃ b ∈ Branch.introduced, ∃ c, Branch.Quotes b.leads text c

/-- In every reference that a word introduces, this is a whole word: no word character stands before it. -/
def WholeWords (text : String) : Prop :=
  ∀ (before : List Inline) (reference : Reference) (after : List Inline),
    helpNodes text = before ++ .reference reference :: after → reference.role ≠ .symbol →
      ∃ (front : List Inline) (lead : String), before = front ++ [.plain lead] ∧
        Text.isWordAt (Inline.sourceOf front).getLast? = false

namespace Markup

/-- Where a branch matches, something is found. -/
private theorem exists_find?_of_matches {b : Branch} {before : Option Char} {text : List Char} {c : Capture}
    (h : b.Matches before text c) : ∃ f, help.find? before text = some f := by
  by_contra hnone
  rw [← Option.isSome_iff_exists, Option.not_isSome_iff_eq_none] at hnone
  exact findSome?_eq_none_of_realizes help_realizes hnone b (mem_all_branches b) c h

/-- Where a word introduces quoted text, this is what is found: the other branches do not match there, apart from that
of upper case words, which comes last. -/
private theorem find?_of_quotes {b : Branch} (hb : b ∈ Branch.introduced) {before : Option Char} {text : List Char}
    {c : Capture} (hc : Branch.Quotes b.leads text c) :
    help.find? before text = some ⟨b.source c, some (b.nodes c)⟩ := by
  have hmatches : b.Matches before text c := (Branch.matches_of_mem_introduced hb).2 hc
  have hword := Branch.takeWhile_mem_spellings hb hc
  obtain ⟨f, hf⟩ := exists_find?_of_matches hmatches
  obtain ⟨earlier, b', later, c', hall, hearlier, ⟨hb', -⟩, hsource, hnodes⟩ :=
    findSome?_eq_some_of_realizes help_realizes hf
  have hlate : b ∉ earlier := fun hmem => hearlier b hmem c hmatches
  obtain rfl : b = b' := by
    by_contra hne
    have hlater : b ∈ later := by
      have hmem := mem_all_branches b
      rw [hall, List.mem_append, List.mem_cons] at hmem
      exact (hmem.resolve_left hlate).resolve_left hne
    rcases Branch.mem_introduced_or_eq hb' (Branch.isWordAt_head?_of_quotes hb hc) with hb'' | rfl
    · have hword' := Branch.takeWhile_mem_spellings hb'' ((Branch.matches_of_mem_introduced hb'').1 hb')
      exact hne (Branch.eq_of_suffix_spelling b hb b' hb'' _ hword _ hword' List.suffix_rfl).1
    · have hrank := Branch.pairwise_rank
      rw [hall, List.pairwise_append, List.pairwise_cons] at hrank
      exact absurd (Branch.rank_lt_of_mem_introduced b hb) (Nat.lt_asymm (hrank.2.1.1 b hlater))
  obtain rfl : c' = c :=
    quotes_unique (Branch.isKeyword_of_mem_leads b hb) hc ((Branch.matches_of_mem_introduced hb).1 hb')
  rw [hf, ← hsource, ← hnodes]

/-- A match of the text starts before a place and ends after it. -/
def ReachesOver (text : List Char) (place : Nat) : Prop :=
  ∃ (as : List Piece) (f : Found) (bs : List Piece), help.pieces text = as ++ .found f :: bs ∧
    (as.flatMap Piece.text).length < place ∧ place < (as.flatMap Piece.text).length + f.matched.length

/-- No match reaches over a place where a piece starts. -/
private theorem not_reachesOver {text : List Char} {as bs : List Piece} (h : help.pieces text = as ++ bs) :
    ¬ ReachesOver text (as.flatMap Piece.text).length := by
  rintro ⟨cs, f, ds, hpieces, hstart, hend⟩
  rw [h, List.append_eq_append_iff] at hpieces
  rcases hpieces with ⟨more, rfl, -⟩ | ⟨more, rfl, hmore⟩
  · simp only [List.flatMap_append, List.length_append] at hstart
    omega
  · cases more with
    | nil =>
      simp only [List.append_nil] at hstart
      omega
    | cons p more =>
      obtain ⟨rfl, -⟩ := List.cons.inj hmore
      simp only [List.flatMap_append, List.flatMap_cons, List.length_append, Piece.text] at hend
      omega

/-- What is found at a place is a match of the text, unless an earlier match reaches over the place. -/
private theorem exists_found {text left right : List Char} (htext : text = left ++ right) {f : Found}
    (hf : help.find? left.getLast? right = some f) (hreach : ¬ ReachesOver text left.length) :
    ∃ as bs : List Piece, help.pieces text = as ++ .found f :: bs ∧ as.flatMap Piece.text = left := by
  have hfaith := help_faithful.find? hf
  have hne : right ≠ [] := fun hnil => hfaith.ne_nil (List.prefix_nil.1 (hnil ▸ hfaith.starts))
  obtain ⟨first, rest, rfl⟩ := List.exists_cons_of_ne_nil hne
  obtain ⟨as, p, bs, l, r, hpieces, hp, hleft, hrest⟩ :=
    exists_of_flatMap_eq ((flatMap_text_pieces help_faithful text).trans htext)
  have hplaced : p.Placed help (as.flatMap Piece.text) (bs.flatMap Piece.text) := by
    simpa using (laid_pieces help_faithful text).placed as p bs hpieces
  cases p with
  | gap gap =>
    -- from within a gap nothing is found
    have hnone := hplaced.2 l first r hp
    rw [← hleft, List.cons_append, ← hrest, hf] at hnone
    simp at hnone
  | found g =>
    have hlength := congrArg List.length hp
    rw [Piece.text, List.length_append, List.length_cons] at hlength
    have hl : l = [] := by
      by_contra hl
      have hpos := List.length_pos_iff.2 hl
      refine hreach ⟨as, g, bs, hpieces, ?_, ?_⟩
      · rw [hleft, List.length_append]
        omega
      · rw [hleft, List.length_append]
        omega
    rw [hl, List.append_nil] at hleft
    have hright : g.matched ++ bs.flatMap Piece.text = first :: rest := by
      rw [hrest, ← List.cons_append, show g.matched = first :: r from by simpa [hl, Piece.text] using hp]
    rw [Piece.Placed, hright, ← hleft, hf] at hplaced
    obtain rfl := Option.some.inj hplaced
    exact ⟨as, bs, hpieces, hleft.symm⟩

/-- The place of a reference that a word introduces. -/
private theorem exists_cites {text : String} {before after : List Inline} {reference : Reference}
    (h : helpNodes text = before ++ .reference reference :: after) (hrole : reference.role ≠ .symbol) :
    ∃ (as bs : List Piece) (lead : String), help.pieces text.toList = as ++ bs ∧
      before = as.flatMap Piece.nodes ++ [.plain lead] ∧
      Cites (bs.flatMap Piece.text) := by
  obtain ⟨as, p, bs, l, r, hpieces, hplaced, hp, rfl, -⟩ := exists_piece help_faithful h
  cases p with
  | gap gap => exact Inline.noConfusion (eq_of_singleton_eq_append hp).2.2
  | found f =>
    obtain ⟨-, b, -, c, -, -, ⟨hmatches, -⟩, -, hf⟩ := findSome?_eq_some_of_realizes help_realizes hplaced
    have hnodes : b.nodes c = l ++ .reference reference :: r := by simpa [Piece.nodes, hf] using hp
    have hreference : .reference reference ∈ b.nodes c := by simp [hnodes]
    have hb := Branch.mem_introduced_of_mem_nodes hreference hrole
    refine ⟨as, .found f :: bs, String.ofList c.lead, hpieces, ?_, b, hb, c, ?_⟩
    · obtain ⟨cited, hcited, -⟩ := Branch.nodes_of_mem_introduced hb c
      rw [hcited] at hnodes
      cases l with
      | nil => simp at hnodes
      | cons x l =>
        obtain ⟨rfl, hl⟩ := List.cons.inj hnodes
        rw [(eq_of_singleton_eq_append hl).1]
    · rw [List.flatMap_cons, Piece.text]
      exact (Branch.matches_of_mem_introduced hb).1 hmatches

end Markup

/-- In every reference that a word introduces this is a whole word exactly if no longer word ends like it, in front of
quoted text, other than within a match that started before. -/
theorem wholeWords_iff (text : String) : WholeWords text ↔ ∀ left right : List Char, text.toList = left ++ right →
    Cites right → Text.isWordAt left.getLast? = true → Markup.ReachesOver text.toList left.length := by
  constructor
  · rintro h left right htext ⟨b, hb, c, hc⟩ hbefore
    by_contra hreach
    obtain ⟨as, bs, hpieces, hleft⟩ := Markup.exists_found htext (Markup.find?_of_quotes hb hc) hreach
    obtain ⟨r, hnodes, hrole⟩ := Branch.nodes_of_mem_introduced hb c
    have hhelp : helpNodes text = (as.flatMap Piece.nodes ++ [.plain (String.ofList c.lead)]) ++ .reference r ::
        bs.flatMap Piece.nodes := by
      simp [helpNodes, Markup.nodes, hpieces, Piece.nodes, hnodes]
    obtain ⟨front, lead, hfront, hword⟩ := h _ _ _ hhelp hrole
    obtain ⟨rfl, -⟩ := List.append_inj' hfront rfl
    have has : as ⊆ Markup.help.pieces text.toList := by simp [hpieces]
    rw [Markup.sourceOf_flatMap_nodes Markup.help_faithful has, hleft, hbefore] at hword
    exact Bool.noConfusion hword
  · intro h before reference after hhelp hrole
    obtain ⟨as, bs, lead, hpieces, rfl, hcites⟩ := Markup.exists_cites hhelp hrole
    have has : as ⊆ Markup.help.pieces text.toList := by simp [hpieces]
    refine ⟨as.flatMap Piece.nodes, lead, rfl, ?_⟩
    rw [Markup.sourceOf_flatMap_nodes Markup.help_faithful has]
    by_contra hbefore
    refine Markup.not_reachesOver hpieces (h _ _ ?_ hcites (by simpa using hbefore))
    rw [← Markup.flatMap_text_pieces Markup.help_faithful text.toList, hpieces, List.flatMap_append]

/-- An interface is taken for a face. -/
theorem interface_cites_face : helpNodes "interface `foo'" =
      [.plain "inter", .plain "face ", .reference { role := .face, target := "foo" }] ∧
    ¬ WholeWords "interface `foo'" := by
  have hnodes : helpNodes "interface `foo'" =
      [.plain "inter", .plain "face ", .reference { role := .face, target := "foo" }] := by
    with_unfolding_all rfl
  refine ⟨hnodes, fun h => ?_⟩
  obtain ⟨front, lead, hfront, hword⟩ := h [.plain "inter", .plain "face "] _ [] hnodes (by decide)
  obtain ⟨rfl, -⟩ : [.plain "inter"] = front ∧ _ := List.append_inj' hfront rfl
  exact absurd hword (by decide)

namespace Markup

/-! ### Longer words -/

/-- A scan passes over a text in which nothing is found. -/
theorem scan_append {m : Markup} (s : List Char) {before : Option Char} {gap t : List Char}
    (h : ∀ (l : List Char) (c : Char) (r : List Char), s = l ++ c :: r →
      m.find? (l.getLast?.or before) (c :: r ++ t) = none) :
    m.scan before gap (s ++ t) = m.scan (s.getLast?.or before) (s.reverse ++ gap) t := by
  induction s generalizing before gap with
  | nil => simp
  | cons c s ih =>
    have hc : m.find? before (c :: (s ++ t)) = none := h [] c s rfl
    have hlast : ∀ l : List Char, (c :: l).getLast?.or before = l.getLast?.or (some c) := by
      intro l
      rw [List.getLast?_cons]
      cases l.getLast? <;> rfl
    rw [List.cons_append, scan, hc, hlast, List.reverse_cons, List.append_assoc]
    refine ih fun l d r hs => ?_
    rw [← hlast]
    exact h (c :: l) d r (by rw [hs, List.cons_append])

/-- The first match of a text. -/
private theorem exists_pieces_append {m : Markup} {s t : List Char} {f : Found}
    (h : ∀ (l : List Char) (c : Char) (r : List Char), s = l ++ c :: r → m.find? l.getLast? (c :: r ++ t) = none)
    (ht : t ≠ []) (hf : m.find? s.getLast? t = some f) :
    ∃ ps : List Piece, m.pieces (s ++ t) = closeGap s.reverse ++ .found f :: ps := by
  obtain ⟨c, cs, rfl⟩ := List.exists_cons_of_ne_nil ht
  rw [pieces, scan_append s (by simpa using h), scan]
  simp [hf]

private theorem atBoundary_of_isWord {c d : Char} (hc : Text.isWord c = true) (hd : Text.isWord d = true) :
    Text.atBoundary (some c) (some d) = false := by
  simp [Text.atBoundary, Text.isWordAt, hc, hd]

/-- An upper case run that starts with a word and ends at a word boundary is this word. -/
private theorem eq_of_upperRun {word value rest more : List Char} {y : Char} (hword : ∀ c ∈ word, Text.isWord c = true)
    (hy : Text.isBlank y = true) (htext : word ++ y :: rest = value ++ more) (hne : value ≠ [])
    (hrun : ∀ c ∈ value, isUpperRun c = true) (hafter : Text.atBoundary value.getLast? more.head? = true) :
    value = word := by
  rcases List.append_eq_append_iff.1 htext with ⟨extra, rfl, hmore⟩ | ⟨extra, rfl, rfl⟩
  · cases extra with
    | nil => rw [List.append_nil]
    | cons z extra =>
      obtain ⟨rfl, -⟩ := List.cons.inj hmore
      have := hrun y (by simp)
      simp [isUpperRun_of_isBlank hy] at this
  · cases extra with
    | nil => rw [List.append_nil]
    | cons z extra =>
      rw [List.getLast?_eq_some_getLast hne, List.cons_append, List.head?_cons,
        atBoundary_of_isWord (hword _ (by simp)) (hword z (by simp))] at hafter
      exact Bool.noConfusion hafter

/-- A match that starts with a longer word is a meta-variable: no word that introduces quoted text is the end of another
one. -/
private theorem eq_metaVariable_of_matches {b : Branch} (hb : b ∈ Branch.introduced) {right : List Char} {c : Capture}
    (hc : Branch.Quotes b.leads right c) {s : List Char} (hs : s ≠ []) (hword : ∀ y ∈ s, Text.isWord y = true)
    {b' : Branch} {before : Option Char} {c' : Capture} (h : b'.Matches before (s ++ right) c') :
    b' = .metaVariable := by
  have hhead : Text.isWordAt (s ++ right).head? = true := by
    rw [List.head?_append_of_ne_nil _ hs, List.head?_eq_some_head hs]
    exact hword _ (List.head_mem hs)
  refine (Branch.mem_introduced_or_eq h hhead).resolve_left fun hb' => ?_
  have hlong := Branch.takeWhile_mem_spellings hb' ((Branch.matches_of_mem_introduced hb').1 h)
  rw [List.takeWhile_append_of_pos hword] at hlong
  have heq := (Branch.eq_of_suffix_spelling b hb b' hb' _ (Branch.takeWhile_mem_spellings hb hc) _ hlong
    (List.suffix_append _ _)).2
  exact hs (List.append_left_eq_self.1 heq.symm)

/-- Within a longer word nothing is found, unless it is in upper case as a whole. -/
private theorem eq_url_of_matches {b : Branch} (hb : b ∈ Branch.introduced) {right : List Char} {c : Capture}
    (hc : Branch.Quotes b.leads right c) {s l r : List Char} {x : Char} (hword : ∀ y ∈ s, Text.isWord y = true)
    (hs : s = l ++ x :: r) {b' : Branch} {c' : Capture} (h : b'.Matches l.getLast? (x :: r ++ right) c') :
    b = .url ∧ (∀ y ∈ s.head?, y.isUpper = true) ∧ ∀ y ∈ s, isUpperRun y = true := by
  have hr : ∀ y ∈ x :: r, Text.isWord y = true := fun y hy => hword y (hs ▸ List.mem_append_right l hy)
  have hx : Text.isWord x = true := hr x (by simp)
  obtain rfl := eq_metaVariable_of_matches hb hc (by simp) hr h
  obtain ⟨w, hw, blank, rest, rfl, hblank⟩ := Branch.exists_spelling_of_quotes hb hc
  obtain ⟨-, ⟨hlength, hfirst, hrun⟩, hbefore, more, htext, hafter⟩ := h
  have hne : c'.value ≠ [] := by
    intro hnil
    simp [hnil] at hlength
  have hlong : ∀ y ∈ x :: r ++ w, Text.isWord y = true := by
    intro y hy
    rcases List.mem_append.1 hy with hy | hy
    · exact hr y hy
    · exact Branch.isWord_of_mem_spellings hb hw y hy
  have hvalue : c'.value = x :: r ++ w :=
    eq_of_upperRun hlong hblank ((List.append_assoc _ _ _).trans htext) hne hrun hafter
  rw [hvalue] at hfirst hrun hbefore
  have hl : l = [] := by
    by_contra hl
    rw [List.getLast?_eq_some_getLast hl, List.cons_append, List.head?_cons,
      atBoundary_of_isWord (hword _ (by simp [hs])) hx] at hbefore
    exact Bool.noConfusion hbefore
  rw [hl, List.nil_append] at hs
  refine ⟨(Branch.eq_url_iff hb hw).2 fun y hy => hrun y (List.mem_append_right _ hy), ?_, ?_⟩
  · rw [hs]
    exact hfirst
  · rw [hs]
    exact fun y hy => hrun y (List.mem_append_left _ hy)

/-- An upper case word that ends like the word of an address may be a meta-variable. -/
private theorem exists_matches_metaVariable {right : List Char} {c : Capture}
    (hc : Branch.Quotes Branch.url.leads right c)
    {s : List Char} (hne : s ≠ []) (hfirst : ∀ y ∈ s.head?, y.isUpper = true) (hrun : ∀ y ∈ s, isUpperRun y = true) :
    ∃ c', Branch.metaVariable.Matches none (s ++ right) c' := by
  have hurl : Branch.url ∈ Branch.introduced := by decide
  obtain ⟨w, hw, blank, rest, rfl, hblank⟩ := Branch.exists_spelling_of_quotes hurl hc
  have hlength := Branch.length_of_mem_spellings _ hurl w hw
  have hupper := (Branch.eq_url_iff hurl hw).1 rfl
  have hwne : w ≠ [] := List.length_pos_iff.1 (by omega)
  obtain ⟨x, s, rfl⟩ := List.exists_cons_of_ne_nil hne
  have hx : x.isUpper = true := hfirst x rfl
  refine ⟨⟨[], x :: s ++ w⟩, rfl, ⟨?_, hfirst, ?_⟩, ?_, blank :: rest, (List.append_assoc _ _ _).symm, ?_⟩
  · rw [List.length_append, List.length_cons]
    omega
  · intro y hy
    exact (List.mem_append.1 hy).elim (hrun y) (hupper y)
  · simp [Text.atBoundary, Text.isWordAt, isWord_of_isUpper hx]
  · have hlast := Branch.isWord_of_mem_spellings hurl hw _ (List.getLast_mem hwne)
    rw [List.getLast?_append_of_ne_nil _ hwne, List.getLast?_eq_some_getLast hwne]
    simp [Text.atBoundary, Text.isWordAt, hlast, Text.isWord_of_isBlank hblank]

end Markup

/-- The end of a longer word at the start of a text introduces a reference, and the rest of the word is plain text,
unless the reference is to an address and the longer word is a meta-variable. -/
theorem helpNodes_longer_word {b : Branch} (hb : b ∈ Branch.introduced) {s right : List Char} {c : Capture}
    (hs : s ≠ []) (hword : ∀ x ∈ s, Text.isWord x = true) (hc : Branch.Quotes b.leads right c) :
    (∃ after, helpNodes (String.ofList (s ++ right)) = .plain (String.ofList s) :: b.nodes c ++ after) ↔
      ¬ (b = .url ∧ (∀ x ∈ s.head?, x.isUpper = true) ∧ ∀ x ∈ s, Markup.isUpperRun x = true) := by
  have hright : right ≠ [] := by
    rintro rfl
    exact Bool.noConfusion (Branch.isWordAt_head?_of_quotes hb hc)
  rw [helpNodes, String.toList_ofList, Markup.nodes]
  constructor
  · rintro ⟨after, hnodes⟩ ⟨rfl, hfirst, hrun⟩
    obtain ⟨c', hc'⟩ := Markup.exists_matches_metaVariable hc hs hfirst hrun
    obtain ⟨f, hf⟩ := Markup.exists_find?_of_matches hc'
    obtain ⟨ps, hps⟩ := Markup.exists_pieces_append (s := []) (by simp) (List.append_ne_nil_of_left_ne_nil hs _) hf
    obtain ⟨-, b', -, c'', -, -, ⟨hb', -⟩, -, hf⟩ := Markup.findSome?_eq_some_of_realizes Markup.help_realizes hf
    obtain rfl := Markup.eq_metaVariable_of_matches hb hc hs hword hb'
    rw [List.nil_append] at hps
    simp [hps, Markup.closeGap, Piece.nodes, hf, Branch.nodes] at hnodes
  · intro hnot
    have hnone : ∀ (l : List Char) (x : Char) (r : List Char), s = l ++ x :: r →
        Markup.help.find? l.getLast? (x :: r ++ right) = none := by
      intro l x r hl
      by_contra hsome
      obtain ⟨f, hf⟩ := Option.ne_none_iff_exists'.1 hsome
      obtain ⟨-, b', -, c', -, -, ⟨hb', -⟩, -⟩ := Markup.findSome?_eq_some_of_realizes Markup.help_realizes hf
      exact hnot (Markup.eq_url_of_matches hb hc hword hl hb')
    obtain ⟨ps, hps⟩ := Markup.exists_pieces_append hnone hright (Markup.find?_of_quotes hb hc)
    refine ⟨ps.flatMap Piece.nodes, ?_⟩
    simp [hps, Markup.closeGap, hs, Piece.nodes]

example : helpNodes "CURL `foo'" =
    [.metaVariable "CURL", .plain " ", .reference { role := .symbol, target := "foo" }] := by
  with_unfolding_all rfl

end LispDoc
