import LispDoc.Proofs.Docstring.Gap
import LispDoc.Proofs.Docstring.Relocation

/-!
# Docstrings one after the other

Two docstrings with a blank line between them are read like each of them, unless the second starts with an indented line
(`Docstring.parse_append_blankLine`). The blocks and diagnostics of the second come after those of the first, as many
lines and bytes further down as the first and the blank line take; definition lists that meet become one.

Lines are numbered here without looking at how the text ends (`Line.pieces`): the empty line after a newline at the end
is blank, and changes nothing about the segments (`Line.cut_split`).
-/

namespace LispDoc

/-! ### Lines of texts one after the other -/

namespace Line

theorem numbered_append (width number offset : Nat) {as : List (List Char)} (h : as ≠ []) (bs : List (List Char)) :
    numbered width number offset (as ++ bs) =
      numbered width number offset as ++
        numbered width (number + as.length) (offset + Text.byteSize (List.intercalate ['\n'] as) + 1) bs := by
  induction as generalizing number offset with
  | nil => exact absurd rfl h
  | cons raw as ih =>
    rcases as with _ | ⟨next, as⟩
    · simp [numbered]
    · have hlines : number + 1 + (next :: as).length = number + (raw :: next :: as).length := by
        simp only [List.length_cons]
        omega
      have hbytes : offset + Text.byteSize raw + 1 + Text.byteSize (List.intercalate ['\n'] (next :: as)) + 1 =
          offset + Text.byteSize (List.intercalate ['\n'] (raw :: next :: as)) + 1 := by
        have hnewline : Text.byteSize ['\n'] = 1 := by decide
        rw [List.intercalate_cons_cons, Text.byteSize_append, Text.byteSize_append, hnewline]
        omega
      rw [List.cons_append, numbered, ih _ _ (List.cons_ne_nil _ _), hlines, hbytes]
      rfl

private theorem numbered_add (width number offset lines bytes : Nat) (raws : List (List Char)) :
    numbered width (number + lines) (offset + bytes) raws =
      (numbered width number offset raws).map (move (· + lines) (· + bytes)) := by
  induction raws generalizing number offset with
  | nil => rfl
  | cons raw raws ih =>
    rw [numbered, numbered, List.map_cons, ← ih]
    congr 2 <;> omega

/-- The lines of a text, with an empty one after a newline at the end. -/
def pieces (width : Nat) (cs : List Char) : List Line := numbered width 1 0 (Text.splitAt '\n' cs)

theorem pieces_append (width : Nat) (as bs : List Char) :
    pieces width (as ++ '\n' :: bs) =
      pieces width as ++
        (pieces width bs).map (move (· + (as.count '\n' + 1)) (· + (Text.byteSize as + 1))) := by
  rw [pieces, Text.splitAt_append, numbered_append _ _ _ (Text.splitAt_ne_nil _ _), Text.intercalate_splitAt,
    Text.length_splitAt, pieces, pieces, ← numbered_add, Nat.add_assoc]

theorem pieces_nil (width : Nat) : pieces width [] = [⟨1, 0, []⟩] := rfl

/-- The empty piece between two newlines is a blank line. -/
private theorem pieces_append_blank (width : Nat) (as bs : List Char) :
    ∃ blank : Line, blank.isBlank = true ∧
      pieces width (as ++ '\n' :: '\n' :: bs) =
        pieces width as ++ blank ::
          (pieces width bs).map (move (· + (as.count '\n' + 2)) (· + (Text.byteSize as + 2))) := by
  refine ⟨⟨1 + (as.count '\n' + 1), 0 + (Text.byteSize as + 1), []⟩, rfl, ?_⟩
  have hrest := pieces_append width [] bs
  rw [List.nil_append, pieces_nil, List.count_nil, Text.byteSize_nil] at hrest
  rw [pieces_append, hrest, List.map_append, List.map_map]
  -- what comes after the blank line moves past each of the two newlines
  have htwice : move (· + (as.count '\n' + 1)) (· + (Text.byteSize as + 1)) ∘ move (· + (0 + 1)) (· + (0 + 1)) =
      move (· + (as.count '\n' + 2)) (· + (Text.byteSize as + 2)) := by
    funext line
    simp only [Function.comp_apply, move]
    congr 1 <;> omega
  rw [htwice]
  rfl

/-- A newline at the end makes no difference for segments. -/
theorem cut_split (width : Nat) (cs : List Char) : Segment.cut (split width cs) = Segment.cut (pieces width cs) := by
  have hsplit : split width cs = if cs.getLast? = some '\n' then (pieces width cs).dropLast else pieces width cs := rfl
  rw [hsplit]
  split
  · next hlast =>
    obtain ⟨init, rfl⟩ := List.getLast?_eq_some_iff.1 hlast
    obtain ⟨last, hblank, hpieces⟩ : ∃ last : Line, last.isBlank = true ∧
        pieces width (init ++ ['\n']) = pieces width init ++ [last] :=
      ⟨_, rfl, pieces_append width init []⟩
    rw [hpieces, List.dropLast_concat, Segment.cut_append_blanks _ (by simpa using hblank)]
  · rfl

end Line

/-! ### Docstrings -/

namespace Docstring

theorem parse_eq_ofLines_pieces (options : Options) (source : Source) (text : String) :
    parse options source text =
      ofLines options.markup.nodes source (Line.pieces options.tabWidth text.toList) :=
  ofLines_congr (Line.cut_split _ _) _ _

/-- Whether a docstring starts with an indented line does not depend on how it ends. -/
theorem find?_pieces (width : Nat) (cs : List Char) :
    (Line.pieces width cs).find? (!·.isBlank) = (Line.split width cs).find? (!·.isBlank) := by
  rw [← Segment.first?_head?_cut, ← Segment.first?_head?_cut, Line.cut_split]

/-- Docstrings compose at blank lines: if the second does not start with an indented line, then the blocks and
diagnostics of both are those of the first and, so many lines and bytes further down, those of the second. A definition
list at the end of the first and one at the start of the second become a single list. -/
theorem parse_append_blankLine (options : Options) (source : Source) (a b : String)
    (h : ∀ line ∈ (Line.split options.tabWidth b.toList).find? (!·.isBlank), line.isIndented = false) :
    parse options source (a ++ "\n\n" ++ b) =
      (parse options source a).followedBy
        ((parse options source b).move (· + (a ++ "\n\n").toList.count '\n')
          (· + Text.byteSize (a ++ "\n\n").toList)) := by
  have htext : (a ++ "\n\n" ++ b).toList = a.toList ++ '\n' :: '\n' :: b.toList := by simp
  have hnewlines : (a ++ "\n\n").toList.count '\n' = a.toList.count '\n' + 2 := by simp
  have hbytes : Text.byteSize (a ++ "\n\n").toList = Text.byteSize a.toList + 2 := by
    have hgap : Text.byteSize "\n\n".toList = 2 := by decide
    rw [String.toList_append, Text.byteSize_append, hgap]
  obtain ⟨blank, hblank, hlines⟩ := Line.pieces_append_blank options.tabWidth a.toList b.toList
  have hfirst : ∀ line ∈ ((Line.pieces options.tabWidth b.toList).map
      (Line.move (· + (a.toList.count '\n' + 2)) (· + (Text.byteSize a.toList + 2)))).find? (!·.isBlank),
      line.isIndented = false := by
    intro line hl
    rw [List.find?_map] at hl
    obtain ⟨first, hfirst, rfl⟩ := Option.map_eq_some_iff.1 hl
    rw [Line.isIndented_move]
    exact h first (by rw [← find?_pieces]; exact hfirst)
  rw [parse_eq_ofLines_pieces, parse_eq_ofLines_pieces, parse_eq_ofLines_pieces, hnewlines, hbytes, htext, hlines,
    ← ofLines_map_move]
  exact ofLines_append_blank _ _ (Line.run_numbered _ _) hblank hfirst

/-- Both docstrings hold a definition list where they meet, and the second gives a warning. -/
theorem parse_append_blankLine_glossary :
    (∀ line ∈ (Line.split 8 "\nshape\n\tThe form.\nend".toList).find? (!·.isBlank), line.isIndented = false) ∧
      parse {} {} ("size\n  The width." ++ "\n\n" ++ "\nshape\n\tThe form.\nend") =
        (parse {} {} "size\n  The width.").followedBy
          ((parse {} {} "\nshape\n\tThe form.\nend").move (· + ("size\n  The width." ++ "\n\n").toList.count '\n')
            (· + Text.byteSize ("size\n  The width." ++ "\n\n").toList)) :=
  ⟨by decide, parse_append_blankLine {} {} _ _ (by decide)⟩

end Docstring

end LispDoc
