import LispDoc.Proofs.Markup.Leftmost

/-!
# What stands next to a meta-variable

A node of a text has its place there: the nodes before it are written back to what precedes it, and the nodes after it
to what follows (`Markup.exists_piece`). So the characters next to a node can be read off its neighbours.

A meta-variable starts and ends at word boundaries. It starts with a letter, so that no word character precedes it. But
it may end with a hyphen, which is no word character, and then the boundary is one only because a word character
follows (`Markup.UpperWord.isWordAt_after_iff`).
-/

namespace LispDoc

/-! ### Places of nodes -/

/-- An element that a function gives rise to is given rise to by one of the elements. -/
theorem exists_of_flatMap_eq {α β : Type} {f : α → List β} {xs : List α} {as bs : List β} {y : β}
    (h : xs.flatMap f = as ++ y :: bs) : ∃ front x back l r, xs = front ++ x :: back ∧ f x = l ++ y :: r ∧
      as = front.flatMap f ++ l ∧ bs = r ++ back.flatMap f := by
  induction xs generalizing as with
  | nil => simp at h
  | cons x xs ih =>
    rw [List.flatMap_cons, List.append_eq_append_iff] at h
    rcases h with ⟨more, rfl, hmore⟩ | ⟨more, hx, hmore⟩
    · obtain ⟨front, z, back, l, r, rfl, hz, rfl, rfl⟩ := ih hmore
      exact ⟨x :: front, z, back, l, r, rfl, hz, by simp, rfl⟩
    · cases more with
      | nil =>
        have hrest : xs.flatMap f = [] ++ y :: bs := hmore.symm
        obtain ⟨front, z, back, l, r, rfl, hz, hl, rfl⟩ := ih hrest
        refine ⟨x :: front, z, back, l, r, rfl, hz, ?_, rfl⟩
        rw [List.flatMap_cons, List.append_assoc, ← hl, hx, List.append_nil, List.append_nil]
      | cons d more =>
        obtain ⟨rfl, rfl⟩ := List.cons.inj hmore
        exact ⟨[], x, xs, as, more, rfl, hx, rfl, rfl⟩

namespace Markup

/-- The nodes of some pieces of a text are written back to the text of these pieces. -/
theorem sourceOf_flatMap_nodes {m : Markup} (hm : m.Faithful) {text : List Char} {ps : List Piece}
    (h : ps ⊆ m.pieces text) : Inline.sourceOf (ps.flatMap Piece.nodes) = ps.flatMap Piece.text :=
  (writesBack_flatMap fun _ hp => (writesBack_of_mem_pieces hm (h hp)).1).source_eq

/-- The place of a node in a text. It belongs to a piece, and the nodes of the pieces before and after are written back
to what precedes and what follows the piece. -/
theorem exists_piece {m : Markup} (hm : m.Faithful) {text : List Char} {before after : List Inline} {node : Inline}
    (h : m.nodes text = before ++ node :: after) : ∃ as p bs l r, m.pieces text = as ++ p :: bs ∧
      p.Placed m (as.flatMap Piece.text) (bs.flatMap Piece.text) ∧ p.nodes = l ++ node :: r ∧
      before = as.flatMap Piece.nodes ++ l ∧ after = r ++ bs.flatMap Piece.nodes ∧
      Inline.sourceOf (as.flatMap Piece.nodes) = as.flatMap Piece.text ∧
      Inline.sourceOf (bs.flatMap Piece.nodes) = bs.flatMap Piece.text := by
  obtain ⟨as, p, bs, l, r, hpieces, hp, hbefore, hafter⟩ := exists_of_flatMap_eq h
  have has : as ⊆ m.pieces text := by simp [hpieces]
  have hbs : bs ⊆ m.pieces text := by simp [hpieces]
  refine ⟨as, p, bs, l, r, hpieces, ?_, hp, hbefore, hafter, sourceOf_flatMap_nodes hm has,
    sourceOf_flatMap_nodes hm hbs⟩
  simpa using (laid_pieces hm text).placed as p bs hpieces

/-! ### Upper case words -/

/-- An upper case word between two characters: it starts with a letter, and at both ends there is a word boundary. -/
structure UpperWord (before : Option Char) (word : List Char) (after : Option Char) : Prop where
  starts : ∃ c, word.head? = some c ∧ c.isUpper = true
  run : ∀ c ∈ word, isUpperRun c = true
  boundary_before : Text.atBoundary before word.head? = true
  boundary_after : Text.atBoundary word.getLast? after = true

theorem isWord_of_isUpper {c : Char} (h : c.isUpper = true) : Text.isWord c = true := by
  have hrange : decide (c.val ≥ 'A'.val ∧ c.val ≤ 'Z'.val) = true := h
  have hlt : c.toNat < 128 := by
    simp only [ge_iff_le, decide_eq_true_eq, UInt32.le_iff_toNat_le] at hrange
    exact Nat.lt_of_le_of_lt hrange.2 (by decide)
  have halphanum : c.isAlphanum = ((c.isUpper || c.isLower) || c.isDigit) := rfl
  simp [Text.isWord, hlt, halphanum, h]

/-- Of the characters of upper case words only the hyphen is no word character. -/
theorem isWord_iff_of_isUpperRun {c : Char} (h : isUpperRun c = true) : Text.isWord c = true ↔ c ≠ '-' := by
  simp only [isUpperRun, Bool.or_eq_true, beq_iff_eq] at h
  rcases h with (h | rfl) | rfl
  · refine iff_of_true (isWord_of_isUpper h) ?_
    rintro rfl
    exact absurd h (by decide)
  · decide
  · decide

namespace UpperWord

variable {before after : Option Char} {word : List Char}

private theorem isWordAt_before (h : UpperWord before word after) : Text.isWordAt before = false := by
  obtain ⟨c, hc, hupper⟩ := h.starts
  have hb := h.boundary_before
  rw [hc, Text.atBoundary, Text.isWordAt, Text.isWordAt, Option.any_some, isWord_of_isUpper hupper] at hb
  simpa [Text.isWordAt] using hb

/-- What follows is a word character exactly if the last character of the word is none. -/
theorem isWordAt_after_iff (h : UpperWord before word after) :
    Text.isWordAt after = true ↔ word.getLast? = some '-' := by
  obtain ⟨c, hc⟩ : ∃ c, word.getLast? = some c := by
    obtain ⟨d, hd, -⟩ := h.starts
    cases word with
    | nil => simp at hd
    | cons d ds => exact ⟨_, List.getLast?_eq_some_getLast (by simp)⟩
  have hlast := isWord_iff_of_isUpperRun (h.run c (List.mem_of_getLast? hc))
  have hb := h.boundary_after
  rw [hc, Text.atBoundary, bne_iff_ne] at hb
  have hc' : Text.isWordAt (some c) = Text.isWord c := rfl
  rw [hc'] at hb
  rw [hc, Option.some.injEq, ← not_iff_not, ← ne_eq, ← ne_eq, ← hlast]
  cases hw : Text.isWord c <;> cases ha : Text.isWordAt after <;> simp_all

end UpperWord

/-- What the rule for upper case words finds, whatever their least length. -/
private theorem exists_upperWord {least : Nat} {before : Option Char} {text : List Char} {f : Found}
    (h : metaVariableRule least before text = some f) : ∃ word rest, f.matched = word ∧ text = word ++ rest ∧
      f.nodes = some [.metaVariable (String.ofList word)] ∧ UpperWord before word rest.head? := by
  obtain ⟨word, hword, rfl⟩ := Option.map_eq_some_iff.1 h
  unfold upperWord? at hword
  split at hword
  · simp at hword
  · rename_i c cs
    split at hword
    · rename_i hc
      obtain ⟨hupper, hbefore⟩ := Bool.and_eq_true_iff.1 hc
      have hspec := longestToBoundary?_spec least (cs.dropWhile isUpperRun).head?
        (c :: cs.takeWhile isUpperRun).reverse
      rw [hword, List.reverse_reverse] at hspec
      obtain ⟨⟨hne, more, hrun, hafter⟩, -, -⟩ := hspec
      have hhead : word.head? = some c := by
        cases word with
        | nil => exact absurd rfl hne
        | cons d ds => rw [(List.cons.inj hrun).1]; rfl
      refine ⟨word, more ++ cs.dropWhile isUpperRun, rfl, ?_, rfl, ⟨c, hhead, hupper⟩, ?_, ?_, ?_⟩
      · rw [← List.append_assoc, ← hrun, List.cons_append, List.takeWhile_append_dropWhile]
      · intro d hd
        have hmem : d ∈ c :: cs.takeWhile isUpperRun := hrun ▸ List.mem_append_left more hd
        rcases List.mem_cons.1 hmem with rfl | hmem
        · simp [isUpperRun, hupper]
        · exact List.mem_takeWhile_imp hmem
      · rwa [hhead]
      · rwa [List.head?_append]
    · simp at hword

/-! ### Meta-variables of a text -/

/-- A markup whose meta-variables are upper case words, each a match of its own. -/
def MarksUpperWords (m : Markup) : Prop :=
  ∀ (left right : List Char) (f : Found) (l r : List Inline) (word : String),
    m.find? left.getLast? (f.matched ++ right) = some f → f.nodes = some (l ++ .metaVariable word :: r) →
      l = [] ∧ r = [] ∧ UpperWord left.getLast? word.toList right.head?

theorem eq_of_singleton_eq_append {α : Type} {x y : α} {l r : List α} (h : [x] = l ++ y :: r) :
    l = [] ∧ r = [] ∧ x = y := by
  cases l with
  | nil =>
    obtain ⟨rfl, hr⟩ := List.cons.inj h
    exact ⟨rfl, hr.symm, rfl⟩
  | cons z l => simp at h

private theorem code_marksUpperWords : code.MarksUpperWords := by
  intro left right f l r word hf hnodes
  have hrule : metaVariableRule 1 left.getLast? (f.matched ++ right) = some f := by
    simpa [find?, code] using hf
  obtain ⟨matched, rest, hmatched, htext, hf, hupper⟩ := exists_upperWord hrule
  obtain ⟨rfl, rfl, hword⟩ := eq_of_singleton_eq_append (Option.some.inj (hf.symm.trans hnodes))
  have hword : matched = word.toList := by rw [← Inline.metaVariable.inj hword, String.toList_ofList]
  rw [hmatched] at htext
  obtain rfl := List.append_cancel_left htext
  exact ⟨rfl, rfl, hword ▸ hupper⟩

/-- Of the branches only one makes meta-variables. -/
private theorem eq_metaVariable_of_mem_nodes {b : Branch} {c : Capture} {word : String}
    (h : .metaVariable word ∈ b.nodes c) :
    b = .metaVariable := by
  cases b with
  | metaVariable => rfl
  | literal =>
    simp only [Branch.nodes] at h
    split at h <;> simp at h
  | _ => simp [Branch.nodes, Branch.cited] at h

private theorem help_marksUpperWords : help.MarksUpperWords := by
  intro left right f l r word hf hnodes
  obtain ⟨earlier, b, later, c, -, -, ⟨hmatches, -⟩, hsource, hb⟩ := findSome?_eq_some_of_realizes help_realizes hf
  have hnodes : b.nodes c = l ++ .metaVariable word :: r := Option.some.inj (hb.symm.trans hnodes)
  have hmem : .metaVariable word ∈ b.nodes c := by simp [hnodes]
  obtain rfl := eq_metaVariable_of_mem_nodes hmem
  obtain ⟨rfl, rfl, hword⟩ := eq_of_singleton_eq_append hnodes
  have hword : c.value = word.toList := by rw [← Inline.metaVariable.inj hword, String.toList_ofList]
  have hmatched : f.matched = c.value := hsource
  obtain ⟨-, ⟨hlength, hfirst, hrun⟩, hbefore, rest, htext, hafter⟩ := hmatches
  rw [hmatched] at htext
  obtain rfl := List.append_cancel_left htext
  refine ⟨rfl, rfl, hword ▸ ⟨?_, hrun, hbefore, hafter⟩⟩
  cases hvalue : c.value with
  | nil => simp [hvalue] at hlength
  | cons d ds => exact ⟨d, rfl, hfirst d (by simp [hvalue])⟩

end Markup

/-- The surroundings of a meta-variable in a text: no word character precedes it, and one follows it exactly if its last
character is a hyphen. -/
structure Inline.Surrounds (text : List Char) (before : List Inline) (word : String) (after : List Inline) : Prop where
  text_eq : text = sourceOf before ++ word.toList ++ sourceOf after
  isWordAt_before : Text.isWordAt (sourceOf before).getLast? = false
  isWordAt_after_iff : Text.isWordAt (sourceOf after).head? = true ↔ word.toList.getLast? = some '-'

theorem Markup.MarksUpperWords.surrounds {m : Markup} (hwords : m.MarksUpperWords) (hm : m.Faithful) {text : List Char}
    {before after : List Inline} {word : String} (h : m.nodes text = before ++ .metaVariable word :: after) :
    Inline.Surrounds text before word after := by
  obtain ⟨as, p, bs, l, r, -, hplaced, hp, rfl, rfl, hleft, hright⟩ := exists_piece hm h
  have hsource := (hm.writesBack text).source_eq
  rw [h, Inline.sourceOf_append, Inline.sourceOf_cons, Inline.source] at hsource
  cases p with
  | gap gap => exact Inline.noConfusion (eq_of_singleton_eq_append hp).2.2
  | found f =>
    have hnodes : f.nodes = some (l ++ .metaVariable word :: r) := by
      cases hf : f.nodes with
      | none => simp [Piece.nodes, hf] at hp
      | some nodes => rw [Piece.nodes, hf, Option.getD_some] at hp; rw [hp]
    obtain ⟨rfl, rfl, hupper⟩ := hwords _ _ f l r word hplaced hnodes
    rw [List.append_nil, List.nil_append] at *
    refine ⟨by simp [← hsource], ?_, ?_⟩
    · rw [hleft]
      exact hupper.isWordAt_before
    · rw [hright]
      exact hupper.isWordAt_after_iff

/-- A meta-variable never continues a word, be it in a text of a help buffer or in code, but a word may continue the
meta-variable: this happens to those, and only those, that end with a hyphen. -/
theorem surrounds_metaVariable (text : String) (before after : List Inline) (word : String) :
    (helpNodes text = before ++ .metaVariable word :: after → Inline.Surrounds text.toList before word after) ∧
      (splitMetaVariables text = before ++ .metaVariable word :: after →
        Inline.Surrounds text.toList before word after) :=
  ⟨Markup.help_marksUpperWords.surrounds Markup.help_faithful,
    Markup.code_marksUpperWords.surrounds Markup.code_faithful⟩

/-- A word in code, next to a hyphen that belongs to it and one that does not. -/
theorem surrounds_metaVariable_code :
    Inline.Surrounds "(f ARG-x N-1)".toList [.plain "(f "] "ARG-" [.plain "x ", .metaVariable "N-", .plain "1)"] :=
  (surrounds_metaVariable "(f ARG-x N-1)" _ _ _).2 (by with_unfolding_all rfl)

/-- A meta-variable that the rest of a word follows. -/
theorem metaVariable_before_letter : helpNodes "FOO-bar" = [.metaVariable "FOO-", .plain "bar"] ∧
    Text.isWordAt (Inline.sourceOf [.plain "bar"]).head? = true := by
  constructor
  · with_unfolding_all rfl
  · with_unfolding_all rfl

end LispDoc
