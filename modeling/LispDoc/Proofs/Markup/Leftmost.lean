import LispDoc.Proofs.Markup.Patterns

/-!
# Inline markup is read from the left, first branch first

A scan cuts a text into gaps and matches. What it leaves behind is described place by place (`Markup.Laid`): from
within a gap nothing is found, and a match is what is found at its start, each time in view of the whole text.

For the markup of help buffers that means: no branch matches from any place in a gap, and every match is made by the
first branch that matches at its start, as the longest match of that branch there. No gap stands next to another.
-/

namespace LispDoc

namespace Piece

def IsGap : Piece → Prop
  | gap _ => True
  | found _ => False

/-- A piece between two texts, as a scan leaves it. -/
def Placed (m : Markup) (left right : List Char) : Piece → Prop
  | gap text => text ≠ [] ∧ ∀ l c r, text = l ++ c :: r → m.find? (left ++ l).getLast? (c :: r ++ right) = none
  | found f => m.find? left.getLast? (f.matched ++ right) = some f

/-- Why a piece of a help buffer stands between two texts. A gap: no branch matches from any place in it. A match: it is
the longest one of the first branch that matches at its start, and has the nodes of that branch. -/
def Justified (left right : List Char) : Piece → Prop
  | gap text => text ≠ [] ∧ ∀ l c r, text = l ++ c :: r →
      ∀ (b : Branch) (m : Capture), ¬ b.Matches (left ++ l).getLast? (c :: r ++ right) m
  | found f => ∃ earlier b later m, Branch.all = earlier ++ b :: later ∧
      (∀ other ∈ earlier, ∀ n, ¬ other.Matches left.getLast? (f.matched ++ right) n) ∧
      b.Longest left.getLast? (f.matched ++ right) m ∧ f.matched = b.source m ∧ f.nodes = some (b.nodes m)

end Piece

namespace Markup

/-- Pieces in a row after the text `left`, each in its place, with no gap next to another. -/
inductive Laid (m : Markup) : List Char → List Piece → Prop
  | nil {left : List Char} : Laid m left []
  | cons {left : List Char} {p : Piece} {ps : List Piece} (placed : p.Placed m left (ps.flatMap Piece.text))
      (apart : p.IsGap → ∀ q ∈ ps.head?, ¬ q.IsGap) (more : Laid m (left ++ p.text) ps) : Laid m left (p :: ps)

/-! ### Scans -/

/-- A gap that is closed at the end of the text or in front of a match. -/
theorem Laid.closeGap {m : Markup} {left gap : List Char} {ps : List Piece}
    (hgap : ∀ l c r, gap.reverse = l ++ c :: r →
      m.find? (left ++ l).getLast? (c :: r ++ ps.flatMap Piece.text) = none)
    (hnext : ∀ q ∈ ps.head?, ¬ q.IsGap) (h : m.Laid (left ++ gap.reverse) ps) :
    m.Laid left (Markup.closeGap gap ++ ps) := by
  unfold Markup.closeGap
  split
  · rename_i hempty
    obtain rfl := List.isEmpty_iff.1 hempty
    simpa using h
  · rename_i hne
    exact .cons ⟨by simpa using hne, hgap⟩ (fun _ => hnext) h

/-- Where nothing is found, the gap grows by a character from which nothing is found either. -/
private theorem find?_eq_none_of_concat {m : Markup} {left gap cs : List Char} {c : Char}
    (hgap : ∀ l d r, gap = l ++ d :: r → m.find? (left ++ l).getLast? (d :: r ++ c :: cs) = none)
    (hc : m.find? (left ++ gap).getLast? (c :: cs) = none) :
    ∀ l d r, gap ++ [c] = l ++ d :: r → m.find? (left ++ l).getLast? (d :: r ++ cs) = none := by
  intro l d r heq
  rcases List.eq_nil_or_concat r with rfl | ⟨r, e, rfl⟩
  · obtain ⟨rfl, hd⟩ := List.append_inj' heq rfl
    obtain rfl : c = d := by simpa using hd
    exact hc
  · rw [List.concat_eq_append, ← List.cons_append, ← List.append_assoc] at heq
    obtain ⟨hgap', he⟩ := List.append_inj' heq rfl
    obtain rfl : c = e := by simpa using he
    have := hgap l d r hgap'
    simpa using this

/-- A scan puts every piece in its place. The invariant is that nothing is found from within the collected gap. -/
private theorem laid_scan {m : Markup} (hm : m.Anchored) (before : Option Char) (gap cs : List Char) :
    ∀ left, before = (left ++ gap.reverse).getLast? →
      (∀ l c r, gap.reverse = l ++ c :: r → m.find? (left ++ l).getLast? (c :: r ++ cs) = none) →
      m.Laid left (m.scan before gap cs) := by
  fun_induction Markup.scan m before gap cs with
  | case1 before gap =>
    intro left hbefore hgap
    have h : m.Laid left (Markup.closeGap gap ++ []) := .closeGap hgap (by simp) .nil
    rwa [List.append_nil] at h
  | case2 before gap c cs f hf ih =>
    intro left hbefore hgap
    have hanchored := hm _ _ _ hf
    have htile := append_drop_of_isPrefix hanchored.ne_nil hanchored.starts
    have hrest : (m.scan (f.matched.getLast?.or before) [] (cs.drop (f.matched.length - 1))).flatMap Piece.text =
        cs.drop (f.matched.length - 1) := by
      rw [flatMap_text_scan hm]; rfl
    refine .closeGap ?_ ?_ (.cons ?_ ?_ ?_)
    · -- the gap ends where the match starts
      rw [List.flatMap_cons, hrest, Piece.text, htile]
      exact hgap
    · intro q hq
      obtain rfl : Piece.found f = q := by simpa using hq
      exact id
    · rw [Piece.Placed, hrest, htile, ← hbefore]
      exact hf
    · intro h
      exact h.elim
    · refine ih _ ?_ (by simp)
      rw [List.reverse_nil, List.append_nil, Piece.text, List.getLast?_append, hbefore]
  | case3 before gap c cs hf ih =>
    intro left hbefore hgap
    refine ih left (by simp) ?_
    rw [List.reverse_cons]
    exact find?_eq_none_of_concat hgap (hbefore ▸ hf)

theorem Anchored.laid_pieces {m : Markup} (hm : m.Anchored) (text : List Char) : m.Laid [] (m.pieces text) :=
  laid_scan hm none [] text [] rfl (by simp)

theorem laid_pieces {m : Markup} (hm : m.Faithful) (text : List Char) : m.Laid [] (m.pieces text) :=
  hm.anchored.laid_pieces text

theorem Laid.placed {m : Markup} {left : List Char} {ps : List Piece} (h : m.Laid left ps) :
    ∀ as p bs, ps = as ++ p :: bs → p.Placed m (left ++ as.flatMap Piece.text) (bs.flatMap Piece.text) := by
  induction h with
  | nil => simp
  | cons placed apart more ih =>
    intro as p bs heq
    cases as with
    | nil =>
      obtain ⟨rfl, rfl⟩ := List.cons.inj heq
      simpa using placed
    | cons a as =>
      obtain ⟨rfl, rfl⟩ := List.cons.inj heq
      simpa using ih as p bs rfl

theorem Laid.apart {m : Markup} {left : List Char} {ps : List Piece} (h : m.Laid left ps) :
    ∀ as p q bs, ps = as ++ p :: q :: bs → p.IsGap → ¬ q.IsGap := by
  induction h with
  | nil => simp
  | cons placed apart more ih =>
    intro as p q bs heq
    cases as with
    | nil =>
      obtain ⟨rfl, rfl⟩ := List.cons.inj heq
      exact fun hp => apart hp q rfl
    | cons a as =>
      obtain ⟨rfl, rfl⟩ := List.cons.inj heq
      exact ih as p q bs rfl

/-! ### Help buffers -/

theorem mem_all_branches (b : Branch) : b ∈ Branch.all := by cases b <;> decide

private theorem justified_of_placed {left right : List Char} {p : Piece} (h : p.Placed help left right) :
    p.Justified left right := by
  cases p with
  | gap text =>
    refine ⟨h.1, fun l c r htext b m => ?_⟩
    exact findSome?_eq_none_of_realizes help_realizes (h.2 l c r htext) b (mem_all_branches b) m
  | found f => exact findSome?_eq_some_of_realizes help_realizes h

end Markup

/-- A text of a help buffer is cut into gaps and matches, which become its nodes. No branch of the markup matches from
any place in a gap. Each match is made by the first branch that matches at its start, as its longest match, and has the
nodes of that branch. No match is left without nodes, and no two gaps stand side by side. -/
theorem justified_pieces_help (text : String) :
    helpNodes text = (Markup.help.pieces text.toList).flatMap Piece.nodes ∧
    (Markup.help.pieces text.toList).flatMap Piece.text = text.toList ∧
    (∀ as p bs, Markup.help.pieces text.toList = as ++ p :: bs →
      p.Justified (as.flatMap Piece.text) (bs.flatMap Piece.text)) ∧
    (∀ as p q bs, Markup.help.pieces text.toList = as ++ p :: q :: bs → p.IsGap → ¬ q.IsGap) ∧
    Markup.help.unhandled? text.toList = none := by
  have hlaid := Markup.laid_pieces Markup.help_faithful text.toList
  refine ⟨rfl, Markup.flatMap_text_pieces Markup.help_faithful _, fun as p bs heq => ?_, hlaid.apart,
    Markup.help_faithful.unhandled? _⟩
  exact Markup.justified_of_placed (hlaid.placed as p bs heq)

end LispDoc
