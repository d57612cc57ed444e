import LispDoc.Proofs.Docstring.Composition

/-!
# Indented docstrings

A docstring with a line of text, once all its lines are indented alike, is read as a block quote of what it was before,
with the same diagnostics (`Docstring.parse_indents`). Only offsets change: a line moves by the spaces in front of it
and in front of the lines before (`shiftedOffset`).

Each normalized line is pushed to the right, unless it is blank (`Line.pieces_indented`), which needs that no tab stop
gets in between. The pushed lines are one region, and taking its common indentation off gives the lines back
(`Line.dedent_map_push`), because the line of text is indented by nothing more. Blank lines at either end make no
difference at either level.
-/

namespace LispDoc

/-! ### Indented texts -/

/-- The text with `k` spaces in front of each piece between its newlines. -/
def indented (k : Nat) (cs : List Char) : List Char :=
  List.intercalate ['\n'] ((Text.splitAt '\n' cs).map (List.replicate k ' ' ++ ·))

/-- The second text is the first with `k` spaces in front of every line. A newline at the end starts no further line, so
that spaces after it are optional. -/
def Indents (k : Nat) (cs ds : List Char) : Prop :=
  ds = indented k cs ∨ cs.getLast? = some '\n' ∧ ds ++ List.replicate k ' ' = indented k cs

/-- The newlines that end within the first `offset` bytes. -/
def newlinesBefore : List Char → Nat → Nat
  | [], _ => 0
  | c :: cs, offset =>
    if c.utf8Size ≤ offset then (if c = '\n' then 1 else 0) + newlinesBefore cs (offset - c.utf8Size) else 0

/-- Where a line starts once the text is indented that started at `offset`. -/
def shiftedOffset (k : Nat) (cs : List Char) (offset : Nat) : Nat := offset + k * newlinesBefore cs offset

theorem newlinesBefore_append (before after : List Char) :
    newlinesBefore (before ++ after) (Text.byteSize before) = before.count '\n' := by
  induction before with
  | nil =>
    rcases after with _ | ⟨c, cs⟩
    · rfl
    · have hsize := c.utf8Size_pos
      rw [List.nil_append, Text.byteSize_nil, newlinesBefore, if_neg (by omega)]
      rfl
  | cons c before ih =>
    rw [List.cons_append, Text.byteSize_cons, newlinesBefore, if_pos (Nat.le_add_right _ _), Nat.add_sub_cancel_left,
      ih, List.count_cons, Nat.add_comm]
    simp only [beq_iff_eq]

private theorem shiftedOffset_of_startsLine {k : Nat} {cs : List Char} {number offset : Nat}
    (h : StartsLine cs number offset) : shiftedOffset k cs offset = offset + k * (number - 1) := by
  obtain ⟨before, after, rfl, rfl, -, rfl⟩ := h
  rw [shiftedOffset, newlinesBefore_append, Nat.add_sub_cancel]

private theorem splitAt_indented (k : Nat) (cs : List Char) :
    Text.splitAt '\n' (indented k cs) = (Text.splitAt '\n' cs).map (List.replicate k ' ' ++ ·) := by
  apply Text.splitAt_intercalate
  · simpa using Text.splitAt_ne_nil '\n' cs
  · intro piece hpiece
    obtain ⟨raw, hraw, rfl⟩ := List.mem_map.1 hpiece
    have hnot := Text.notMem_of_mem_splitAt hraw
    simp [hnot]

theorem indented_append (k : Nat) (as bs : List Char) :
    indented k (as ++ '\n' :: bs) = indented k as ++ '\n' :: indented k bs := by
  rw [← Text.intercalate_splitAt '\n' (indented k as ++ '\n' :: indented k bs), Text.splitAt_append, splitAt_indented,
    splitAt_indented, ← List.map_append, ← Text.splitAt_append]
  rfl

/-! ### Lines pushed to the right -/

theorem Text.byteSize_spaces (k : Nat) : byteSize (List.replicate k ' ') = k := by
  induction k with
  | zero => rfl
  | succ k ih =>
    have hspace : ' '.utf8Size = 1 := by decide
    rw [List.replicate_succ, byteSize_cons, ih, hspace, Nat.add_comm]

theorem Text.trimEnd_spaces_append (k : Nat) (cs : List Char) :
    trimEnd (List.replicate k ' ' ++ cs) = if trimEnd cs = [] then [] else List.replicate k ' ' ++ trimEnd cs := by
  have hspaces : (List.replicate k ' ').dropWhile isBlank = [] := by
    rw [List.dropWhile_eq_nil_iff]
    intro c hc
    rw [List.eq_of_mem_replicate hc]
    decide
  rw [trimEnd, List.reverse_append, List.reverse_replicate, List.dropWhile_append, hspaces]
  by_cases hblank : cs.reverse.dropWhile isBlank = []
  · simp [trimEnd, hblank]
  · simp [trimEnd, hblank]

namespace Line

/-- Spaces in front move no tab stop if they lead from one to another. -/
private theorem expandTabs_spaces_append {width k : Nat} {cs : List Char} (h : '\t' ∉ cs ∨ max width 1 ∣ k) :
    expandTabs width (List.replicate k ' ' ++ cs) = List.replicate k ' ' ++ expandTabs width cs := by
  have hspaces : expandTabs width (List.replicate k ' ') = List.replicate k ' ' :=
    expandTabsFrom_of_notMem (by simp) _ _
  rcases h with h | h
  · have htab : '\t' ∉ List.replicate k ' ' ++ cs := by simp [h]
    rw [expandTabs, expandTabs, expandTabsFrom_of_notMem htab, expandTabsFrom_of_notMem h]
  · have hdvd : max width 1 ∣ (expandTabs width (List.replicate k ' ')).length := by
      rwa [hspaces, List.length_replicate]
    rw [expandTabs_append hdvd, hspaces]

/-- The line `k` columns further to the right, unless it is blank. -/
def push (k : Nat) (line : Line) : Line :=
  { line with text := if line.text = [] then [] else List.replicate k ' ' ++ line.text }

private theorem numbered_map_spaces {width k : Nat} {raws : List (List Char)}
    (h : ∀ raw ∈ raws, '\t' ∉ raw ∨ max width 1 ∣ k) (before offset : Nat) :
    numbered width (before + 1) (offset + k * before) (raws.map (List.replicate k ' ' ++ ·)) =
      (numbered width (before + 1) offset raws).map fun line =>
        ⟨line.number, line.offset + k * (line.number - 1), (line.push k).text⟩ := by
  induction raws generalizing before offset with
  | nil => rfl
  | cons raw raws ih =>
    have htext : Text.trimEnd (expandTabs width (List.replicate k ' ' ++ raw)) =
        (push k ⟨before + 1, offset, Text.trimEnd (expandTabs width raw)⟩).text := by
      rw [expandTabs_spaces_append (h raw (by simp)), Text.trimEnd_spaces_append]
      rfl
    have hoffset : offset + k * before + Text.byteSize (List.replicate k ' ' ++ raw) + 1 =
        offset + Text.byteSize raw + 1 + k * (before + 1) := by
      rw [Text.byteSize_append, Text.byteSize_spaces, Nat.mul_add]
      omega
    rw [List.map_cons, numbered, numbered, List.map_cons, htext, hoffset, ih fun r hr => h r (by simp [hr])]
    rfl

/-- The lines of an indented text are the lines of the text, pushed to the right. -/
theorem pieces_indented {width k : Nat} {cs : List Char} (h : '\t' ∉ cs ∨ max width 1 ∣ k) :
    pieces width (indented k cs) = ((pieces width cs).map (push k)).map (move id (shiftedOffset k cs)) := by
  have hraw : ∀ raw ∈ Text.splitAt '\n' cs, '\t' ∉ raw ∨ max width 1 ∣ k := by
    intro raw hr
    exact h.imp_left fun htab hmem => htab (Text.mem_of_mem_splitAt hr hmem)
  have hlines := numbered_map_spaces hraw 0 0
  rw [pieces, splitAt_indented, List.map_map]
  refine hlines.trans (List.map_congr_left fun line hl => ?_)
  have hstart := (run_numbered width cs).starts line hl
  rw [Function.comp_apply, move, push, shiftedOffset_of_startsLine hstart]
  rfl

private theorem split_subset_pieces (width : Nat) (cs : List Char) : split width cs ⊆ pieces width cs := by
  unfold split
  dsimp only
  split
  · exact List.dropLast_subset _
  · exact List.Subset.refl _

/-- The spaces after a newline at the end make no difference. -/
private theorem pieces_append_spaces (width k : Nat) (cs : List Char) :
    pieces width (cs ++ '\n' :: List.replicate k ' ') = pieces width (cs ++ ['\n']) := by
  have hnewline : '\n' ∉ List.replicate k ' ' := by simp
  have hblank : Text.trimEnd (expandTabs width (List.replicate k ' ')) = [] := by
    have htab : '\t' ∉ List.replicate k ' ' := by simp
    have htrim := Text.trimEnd_spaces_append k []
    rw [List.append_nil] at htrim
    rw [expandTabs, expandTabsFrom_of_notMem htab, htrim]
    rfl
  have hspaces : pieces width (List.replicate k ' ') = pieces width [] := by
    rw [pieces, Text.splitAt_of_notMem hnewline, numbered, hblank]
    rfl
  rw [pieces_append, pieces_append, hspaces]

private theorem pieces_of_indents {width k : Nat} {cs ds : List Char} (htabs : '\t' ∉ cs ∨ max width 1 ∣ k)
    (h : Indents k cs ds) :
    pieces width ds = ((pieces width cs).map (push k)).map (move id (shiftedOffset k cs)) := by
  rw [← pieces_indented htabs]
  rcases h with rfl | ⟨hlast, h⟩
  · rfl
  · obtain ⟨init, rfl⟩ := List.getLast?_eq_some_iff.1 hlast
    have hempty : indented k [] = List.replicate k ' ' := by simp [indented, Text.splitAt]
    rw [indented_append, hempty] at h ⊢
    have hds : ds ++ List.replicate k ' ' = (indented k init ++ ['\n']) ++ List.replicate k ' ' := by
      rw [h, List.append_assoc]
      rfl
    rw [List.append_cancel_right hds, pieces_append_spaces]

/-! ### Pushing is undone -/

private theorem isBlank_push (k : Nat) (line : Line) : (line.push k).isBlank = line.isBlank := by
  rw [Bool.eq_iff_iff, Segment.isBlank_iff, Segment.isBlank_iff, push]
  by_cases hb : line.text = []
  · simp [hb]
  · simp [hb]

private theorem isText_push {k : Nat} (hk : 1 ≤ k) (line : Line) : (line.push k).isText = false := by
  obtain ⟨n, rfl⟩ : ∃ n, k = n + 1 := ⟨k - 1, by omega⟩
  by_cases hb : line.text = []
  · simp [push, hb, isText, kind]
  · simp [push, hb, isText, kind, List.replicate_succ]

private theorem indent_push {k : Nat} {line : Line} (hb : line.isBlank = false) :
    (line.push k).indent = k + line.indent := by
  have hne : line.text ≠ [] := by
    intro hnil
    rw [(Segment.isBlank_iff line).2 hnil] at hb
    exact Bool.noConfusion hb
  have hspaces : ∀ c ∈ List.replicate k ' ', (c == ' ') = true := by
    intro c hc
    rw [List.eq_of_mem_replicate hc]
    rfl
  rw [indent, push, if_neg hne, List.takeWhile_append_of_pos hspaces, List.length_append, List.length_replicate]
  rfl

private theorem drop_push (k : Nat) (line : Line) : (line.push k).drop k = line := by
  by_cases hb : line.text = []
  · rw [drop, push, if_pos hb, List.drop_nil, ← hb]
  · rw [drop, push, if_neg hb, List.drop_left' (List.length_replicate ..)]

/-- Beside a line of text, pushed lines have nothing else in common. -/
private theorem commonIndent_map_push (k : Nat) {lines : List Line} (h : ∃ line ∈ lines, line.isText = true) :
    commonIndent (lines.map (push k)) = k := by
  obtain ⟨line, hl, htext⟩ := h
  have hblank := isBlank_of_isText htext
  have hpushed : (line.push k).isBlank = false := (isBlank_push k line).trans hblank
  have hmem : line.push k ∈ lines.map (push k) := List.mem_map.2 ⟨line, hl, rfl⟩
  apply Nat.le_antisymm
  · have hle := commonIndent_le hmem hpushed
    rwa [indent_push hblank, indent_of_isText htext, Nat.add_zero] at hle
  · obtain ⟨least, hleast, hb, heq⟩ := exists_indent_eq_commonIndent ⟨_, hmem, hpushed⟩
    obtain ⟨other, -, rfl⟩ := List.mem_map.1 hleast
    rw [isBlank_push] at hb
    rw [← heq, indent_push hb]
    exact Nat.le_add_right _ _

theorem dedent_map_push (k : Nat) {lines : List Line} (h : ∃ line ∈ lines, line.isText = true) :
    dedent (lines.map (push k)) = lines := by
  rw [dedent, commonIndent_map_push k h, List.map_map]
  conv => rhs; rw [← List.map_id lines]
  exact List.map_congr_left fun line _ => drop_push k line

end Line

/-! ### The quote -/

theorem Region.dropTrailingBlank_map_push (k : Nat) (lines : List Line) :
    dropTrailingBlank (lines.map (Line.push k)) = (dropTrailingBlank lines).map (Line.push k) := by
  have hblank : Line.isBlank ∘ Line.push k = Line.isBlank := funext fun line => Line.isBlank_push k line
  rw [dropTrailingBlank, ← List.map_reverse, List.dropWhile_map, hblank, ← List.map_reverse]
  rfl

/-- Pushed lines are read as a single region, which holds the lines up to blank ones at the end. -/
theorem Region.read_map_push {k : Nat} (hk : 1 ≤ k) {lines : List Line} (h : ∃ line ∈ lines, line.isText = true) :
    (read (lines.map (Line.push k))).lines = dropTrailingBlank lines ∧
      (read (lines.map (Line.push k))).rest = [] := by
  have hnone : ∀ line ∈ lines.map (Line.push k), (!line.isText) = true := by
    intro line hl
    obtain ⟨original, -, rfl⟩ := List.mem_map.1 hl
    rw [Line.isText_push hk]
    rfl
  -- the line of text is not among the blank lines at the end
  have htext : ∃ line ∈ dropTrailingBlank lines, line.isText = true := by
    obtain ⟨line, hl, ht⟩ := h
    rw [← dropTrailingBlank_append lines, List.mem_append] at hl
    rcases hl with hl | hl
    · exact ⟨line, hl, ht⟩
    · have hb := List.all_eq_true.1 List.all_takeWhile line (List.mem_reverse.1 hl)
      rw [Line.isBlank_of_isText ht] at hb
      exact Bool.noConfusion hb
  constructor
  · rw [read_lines, raw, List.takeWhile_eq_self_iff.2 hnone, dropTrailingBlank_map_push, Line.dedent_map_push k htext]
  · exact List.dropWhile_eq_nil_iff.2 hnone

theorem Segment.cut_dropTrailingBlank (lines : List Line) : cut (Region.dropTrailingBlank lines) = cut lines := by
  conv => rhs; rw [← Region.dropTrailingBlank_append lines]
  refine (cut_append_blanks _ fun line hl => ?_).symm
  exact List.all_eq_true.1 List.all_takeWhile line (List.mem_reverse.1 hl)

/-- Pushed lines fall into one quote, whose region falls into the segments of the lines. -/
theorem Segment.cut_map_push {k : Nat} (hk : 1 ≤ k) {lines : List Line} (h : ∃ line ∈ lines, line.isText = true) :
    ∃ first ∈ lines.find? (!·.isBlank), ∃ region,
      cut (lines.map (Line.push k)) = [.quote (first.push k) region] ∧ cut region = cut lines := by
  have hblanks : ∀ line ∈ lines.takeWhile Line.isBlank, line.isBlank = true :=
    fun line hl => List.all_eq_true.1 List.all_takeWhile line hl
  have hlines : lines.takeWhile Line.isBlank ++ lines.dropWhile Line.isBlank = lines := List.takeWhile_append_dropWhile
  have hcut : cut (lines.dropWhile Line.isBlank) = cut lines := by rw [← cut_blanks hblanks, hlines]
  have hpushed : cut ((lines.dropWhile Line.isBlank).map (Line.push k)) = cut (lines.map (Line.push k)) := by
    have hgap : ∀ line ∈ (lines.takeWhile Line.isBlank).map (Line.push k), line.isBlank = true := by
      intro line hl
      obtain ⟨original, hmem, rfl⟩ := List.mem_map.1 hl
      rw [Line.isBlank_push, hblanks original hmem]
    rw [← cut_blanks hgap, ← List.map_append, hlines]
  have htext : ∃ line ∈ lines.dropWhile Line.isBlank, line.isText = true := by
    obtain ⟨line, hl, ht⟩ := h
    rw [← hlines, List.mem_append] at hl
    rcases hl with hl | hl
    · rw [Line.isText_of_isBlank (hblanks line hl)] at ht
      exact Bool.noConfusion ht
    · exact ⟨line, hl, ht⟩
  have hfind : lines.find? (!·.isBlank) = (lines.dropWhile Line.isBlank).head? := by
    rw [List.find?_eq_head?_dropWhile_not]
    simp only [Bool.not_not]
  rcases hrest : lines.dropWhile Line.isBlank with _ | ⟨first, rest⟩
  · simp [hrest] at htext
  · rw [hrest] at hcut hpushed htext hfind
    have hfirst : first.isBlank = false := by simpa using List.find?_some hfind
    have hindented : (first.push k).isIndented = true := by
      cases hi : (first.push k).isIndented with
      | true => rfl
      | false =>
        have ht := Line.isText_of_not ((Line.isBlank_push k first).trans hfirst) hi
        rw [Line.isText_push hk] at ht
        exact Bool.noConfusion ht
    obtain ⟨hregion, hend⟩ := Region.read_map_push hk htext
    refine ⟨first, hfind, Region.dropTrailingBlank (first :: rest), ?_, (cut_dropTrailingBlank _).trans hcut⟩
    rw [List.map_cons] at hpushed hregion hend
    rw [← hpushed, cut_of_isIndented hindented, hregion, hend, cut_nil]

theorem Diagnostic.move_id (d : Diagnostic) : d.move id = d := by
  obtain ⟨severity, message, location⟩ := d
  simp [move]

namespace Docstring

private theorem ofLines_map_push (inline : List Char → List Inline) (source : Source) {k : Nat} (hk : 1 ≤ k)
    {lines : List Line} (h : ∃ line ∈ lines, line.isText = true) :
    ∃ first ∈ lines.find? (!·.isBlank),
      ofLines inline source (lines.map (Line.push k)) =
        ⟨[.blockQuote (ofLines inline source lines).blocks (originOf source first)],
          (ofLines inline source lines).diagnostics⟩ := by
  obtain ⟨first, hfirst, region, hcut, hregion⟩ := Segment.cut_map_push hk h
  refine ⟨first, hfirst, ?_⟩
  rw [ofLines_eq, hcut, ← ofLines_congr hregion]
  simp only [List.map_cons, List.map_nil, ofSegment, Parsed.join, List.flatMap_cons, List.flatMap_nil, List.append_nil]
  rfl

/-- A docstring with a line of text, indented by spaces that lead from a tab stop to a tab stop unless it has no tab, is
read as a block quote. The quote starts on the first line that is not blank, its children are the blocks of the
docstring with the same lines and other offsets, and the diagnostics are those of the docstring. -/
theorem parse_indents (options : Options) (source : Source) (text : String) {k : Nat} {ds : List Char}
    (htext : ∃ line ∈ Line.split options.tabWidth text.toList, line.isText = true) (hk : 1 ≤ k)
    (htabs : '\t' ∉ text.toList ∨ max options.tabWidth 1 ∣ k) (h : Indents k text.toList ds) :
    ∃ first ∈ (Line.split options.tabWidth text.toList).find? (!·.isBlank),
      parse options source (String.ofList ds) =
        ⟨[.blockQuote (Block.moveAll id (shiftedOffset k text.toList) (parse options source text).blocks)
            ((originOf source first).move id (shiftedOffset k text.toList))],
          (parse options source text).diagnostics⟩ := by
  have hpieces : ∃ line ∈ Line.pieces options.tabWidth text.toList, line.isText = true := by
    obtain ⟨line, hl, ht⟩ := htext
    exact ⟨line, Line.split_subset_pieces _ _ hl, ht⟩
  obtain ⟨first, hfirst, hquote⟩ := ofLines_map_push options.markup.nodes source hk hpieces
  refine ⟨first, by rwa [← find?_pieces], ?_⟩
  have hmoved := ofLines_map_move id (shiftedOffset k text.toList) options.markup.nodes source
    ((Line.pieces options.tabWidth text.toList).map (Line.push k))
  have hsame : ∀ diagnostics : List Diagnostic, diagnostics.map (Diagnostic.move id) = diagnostics := by
    intro diagnostics
    rw [funext Diagnostic.move_id, List.map_id']
  rw [parse_eq_ofLines_pieces, parse_eq_ofLines_pieces, String.toList_ofList, Line.pieces_of_indents htabs h, hmoved,
    hquote, Parsed.move, hsame, Block.moveAll_eq_map, List.map_singleton, Block.move]

/-- A definition behind a tab stop, a blank line, a line that is out of place and a newline at the end. -/
theorem parse_indents_glossary :
    Indents 4 "\nsize\n\tThe width.\nend\n".toList "    \n    size\n    \tThe width.\n    end\n".toList ∧
      ∃ first ∈ (Line.split 4 "\nsize\n\tThe width.\nend\n".toList).find? (!·.isBlank),
        parse { tabWidth := 4 } {} (String.ofList "    \n    size\n    \tThe width.\n    end\n".toList) =
          ⟨[.blockQuote
              (Block.moveAll id (shiftedOffset 4 "\nsize\n\tThe width.\nend\n".toList)
                (parse { tabWidth := 4 } {} "\nsize\n\tThe width.\nend\n").blocks)
              ((originOf {} first).move id (shiftedOffset 4 "\nsize\n\tThe width.\nend\n".toList))],
            (parse { tabWidth := 4 } {} "\nsize\n\tThe width.\nend\n").diagnostics⟩ := by
  have hindents : Indents 4 "\nsize\n\tThe width.\nend\n".toList
      "    \n    size\n    \tThe width.\n    end\n".toList := .inr (by decide)
  exact ⟨hindents, parse_indents { tabWidth := 4 } {} _ (by decide) (by decide) (.inr (by decide)) hindents⟩

end Docstring

end LispDoc
