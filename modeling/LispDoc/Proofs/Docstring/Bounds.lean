import LispDoc.Proofs.Docstring.Indentation
import Mathlib.Data.List.DropRight
import Mathlib.Data.List.Forall2

/-!
# Where regions start and end

A region is read from the position of an indented line. It ends at the next line of text or behind the last line, blank
lines at its end do not belong to it, and each of its lines that is not blank loses the same spaces: `Region.Spans` says
so by positions. Unless some line is made of spaces alone, a line of text is among those that are left, and there is no
common indentation to take off any more.
-/

namespace LispDoc

namespace Line

/-- `inner` is the line without `c` spaces at its front. A blank line has none. -/
structure Outdents (c : Nat) (line inner : Line) : Prop where
  number : inner.number = line.number
  offset : inner.offset = line.offset
  text : if line.isBlank then inner.text = [] else line.text = List.replicate c ' ' ++ inner.text

/-- As many spaces as the indentation has can be taken off the front. -/
private theorem text_eq_spaces_append {c : Nat} {line : Line} (h : c ≤ line.indent) :
    line.text = List.replicate c ' ' ++ line.text.drop c := by
  have htake : line.text.take c = (line.text.takeWhile (· == ' ')).take c := by
    conv => lhs; rw [← List.takeWhile_append_dropWhile (l := line.text) (p := (· == ' '))]
    exact List.take_append_of_le_length h
  have hspaces : line.text.take c = List.replicate c ' ' := by
    rw [List.eq_replicate_iff, htake]
    refine ⟨by rw [List.length_take]; exact Nat.min_eq_left h, ?_⟩
    intro d hd
    have hspace : (d == ' ') = true := List.mem_takeWhile_imp (p := (· == ' ')) (List.mem_of_mem_take hd)
    exact eq_of_beq hspace
  conv => lhs; rw [← List.take_append_drop c line.text]
  rw [hspaces]

private theorem outdents_drop {c : Nat} {line : Line} (h : line.isBlank = false → c ≤ line.indent) :
    Outdents c line (line.drop c) := by
  refine ⟨rfl, rfl, ?_⟩
  split
  · rename_i hb
    rw [Line.drop, (Segment.isBlank_iff line).1 hb, List.drop_nil]
  · rename_i hb
    exact text_eq_spaces_append (h (by simpa using hb))

private theorem outdents_dedent (lines : List Line) :
    List.Forall₂ (Outdents (commonIndent lines)) lines (dedent lines) := by
  rw [dedent, List.forall₂_map_right_iff, List.forall₂_same]
  intro line hl
  exact outdents_drop fun hb => commonIndent_le hl hb

/-- Lines among which there is a line of text have no common indentation. -/
private theorem dedent_eq_self {lines : List Line} (h : ∃ line ∈ lines, line.isText = true) : dedent lines = lines := by
  obtain ⟨line, hl, ht⟩ := h
  have hle := commonIndent_le hl (isBlank_of_isText ht)
  have hzero : commonIndent lines = 0 := by
    rw [indent_of_isText ht] at hle
    omega
  have hid : Line.drop 0 = id := rfl
  rw [dedent, hzero, hid, List.map_id]

end Line

namespace Region

/-- The position behind the region that starts at `start`. -/
def nextAt (lines : List Line) (start : Nat) : Nat := lines.length - (read (lines.drop start)).rest.length

/-- The region that is read from position `start` reaches up to position `next`. -/
structure Spans (lines : List Line) (start next : Nat) (region : Region) : Prop where
  start_lt : start < next
  le_length : next ≤ lines.length
  rest_eq : region.rest = lines.drop next
  ends : ∀ line ∈ lines[next]?, line.isText = true
  inside : ∀ i line, start ≤ i → i < next → line ∈ lines[i]? → line.isText = false
  /-- the lines up to `last`, the last one that is not blank, without their common indentation -/
  outdents : ∃ last, start < last ∧ last ≤ next ∧ (∃ line ∈ lines[last - 1]?, line.isBlank = false) ∧
    (∀ i line, last ≤ i → i < next → line ∈ lines[i]? → line.isBlank = true) ∧
    ∃ c, 1 ≤ c ∧ List.Forall₂ (Line.Outdents c) ((lines.take last).drop start) region.lines
  flush : (∀ i line, start ≤ i → i < next → line ∈ lines[i]? → line.Solid) →
    (∃ line ∈ region.lines, line.isText = true) ∧ Line.dedent region.lines = region.lines
  finish : region.blankFinish = true ↔ next = lines.length ∨ ∃ line ∈ lines[next - 1]?, line.isBlank = true

/-! ### Positions in a list that is cut in three -/

private theorem mem_of_getElem?_middle {front middle back : List Line} {i : Nat} {line : Line} (hle : front.length ≤ i)
    (hlt : i < front.length + middle.length) (h : line ∈ (front ++ (middle ++ back))[i]?) : line ∈ middle := by
  rw [List.getElem?_append_right hle, List.getElem?_append_left (by omega)] at h
  exact List.mem_of_getElem? h

private theorem getElem?_of_mem_middle (front back : List Line) {middle : List Line} {line : Line} (h : line ∈ middle) :
    ∃ i, front.length ≤ i ∧ i < front.length + middle.length ∧ line ∈ (front ++ (middle ++ back))[i]? := by
  obtain ⟨i, hi⟩ := List.mem_iff_getElem?.1 h
  have hlt : i < middle.length := (List.getElem?_eq_some_iff.1 hi).1
  refine ⟨front.length + i, by omega, by omega, ?_⟩
  rw [List.getElem?_append_right (by omega), Nat.add_sub_cancel_left, List.getElem?_append_left hlt]
  exact hi

private theorem getElem?_last_middle (front back : List Line) {middle : List Line} (h : middle ≠ []) :
    (front ++ (middle ++ back))[front.length + middle.length - 1]? = middle.getLast? := by
  have hpos : 0 < middle.length := List.length_pos_iff.2 h
  have hindex : front.length + middle.length - 1 - front.length = middle.length - 1 := by omega
  rw [List.getElem?_append_right (by omega), hindex, List.getElem?_append_left (by omega), List.getLast?_eq_getElem?]

private theorem drop_take_middle (front middle back : List Line) :
    ((front ++ (middle ++ back)).take (front.length + middle.length)).drop front.length = middle := by
  rw [List.take_length_add_append, List.take_left, List.drop_left]

/-! ### The lines up to the next line of text -/

/-- The lines in front of the next line of text. -/
def taken (lines : List Line) : List Line := lines.takeWhile (!·.isText)

private theorem taken_append_rest (lines : List Line) : taken lines ++ (read lines).rest = lines :=
  List.takeWhile_append_dropWhile

private theorem isText_of_mem_taken {lines : List Line} {line : Line} (h : line ∈ taken lines) :
    line.isText = false := by
  simpa using List.mem_takeWhile_imp h

/-- Blank lines stand behind the region, up to the next line of text. -/
private theorem taken_eq_raw_append (lines : List Line) :
    ∃ blanks, taken lines = raw lines ++ blanks ∧ ∀ line ∈ blanks, line.isBlank = true := by
  refine ⟨_, (dropTrailingBlank_append _).symm, ?_⟩
  intro line hl
  exact List.mem_takeWhile_imp (List.mem_reverse.1 hl)

private theorem isBlank_getLast_raw {lines : List Line} (hne : raw lines ≠ []) :
    ((raw lines).getLast hne).isBlank = false := by
  have hlast : ¬ Line.isBlank ((raw lines).getLast hne) = true :=
    List.rdropWhile_last_not Line.isBlank (taken lines) hne
  simpa using hlast

theorem nextAt_append (front lines : List Line) :
    nextAt (front ++ lines) front.length = front.length + (taken lines).length := by
  have hsplit := congrArg List.length (taken_append_rest lines)
  rw [List.length_append] at hsplit
  rw [nextAt, List.drop_left, List.length_append]
  omega

private theorem rest_eq_drop_nextAt (front lines : List Line) :
    (read lines).rest = (front ++ lines).drop (nextAt (front ++ lines) front.length) := by
  have hdrop : (front ++ (taken lines ++ (read lines).rest)).drop (front.length + (taken lines).length) =
      (read lines).rest := by
    rw [List.drop_length_add_append, List.drop_left]
  rw [taken_append_rest, ← nextAt_append] at hdrop
  exact hdrop.symm

private theorem isText_at_nextAt {front lines : List Line} {line : Line}
    (h : line ∈ (front ++ lines)[nextAt (front ++ lines) front.length]?) : line.isText = true := by
  have hhead : line ∈ (read lines).rest.head? := by
    rw [rest_eq_drop_nextAt front, List.head?_drop]
    exact h
  exact isText_of_head?_rest hhead

private theorem mem_taken_of_lt_nextAt {front lines : List Line} {i : Nat} {line : Line} (hle : front.length ≤ i)
    (hlt : i < nextAt (front ++ lines) front.length) (h : line ∈ (front ++ lines)[i]?) : line ∈ taken lines := by
  rw [nextAt_append] at hlt
  rw [← taken_append_rest lines] at h
  exact mem_of_getElem?_middle hle hlt h

/-- A blank line is said to follow if nothing does, or if a blank line comes last. -/
private theorem blankFinish_iff {front lines : List Line} (hne : taken lines ≠ []) :
    (read lines).blankFinish = true ↔ nextAt (front ++ lines) front.length = (front ++ lines).length ∨
      ∃ line ∈ (front ++ lines)[nextAt (front ++ lines) front.length - 1]?, line.isBlank = true := by
  have hlast : (front ++ lines)[nextAt (front ++ lines) front.length - 1]? = (taken lines).getLast? := by
    have hget := getElem?_last_middle front (read lines).rest hne
    rwa [taken_append_rest, ← nextAt_append] at hget
  have hempty : (read lines).rest = [] ↔ nextAt (front ++ lines) front.length = (front ++ lines).length := by
    have hle : nextAt (front ++ lines) front.length ≤ (front ++ lines).length := Nat.sub_le _ _
    rw [rest_eq_drop_nextAt front, List.drop_eq_nil_iff]
    omega
  rw [hlast, ← hempty]
  show ((read lines).rest.isEmpty || (taken lines).getLast?.any Line.isBlank) = true ↔ _
  rw [Bool.or_eq_true, List.isEmpty_iff, Option.any_eq_true]
  rfl

/-! ### Regions that start with an indented line -/

section

variable {first : Line} (hi : first.isIndented = true) (front rest : List Line)

include hi

private theorem raw_ne_nil : raw (first :: rest) ≠ [] := by
  obtain ⟨more, hraw⟩ := raw_cons hi rest
  simp [hraw]

private theorem exists_nonblank_raw : ∃ line ∈ raw (first :: rest), line.isBlank = false := by
  obtain ⟨more, hraw⟩ := raw_cons hi rest
  exact ⟨first, by simp [hraw], Line.isBlank_of_isIndented hi⟩

theorem commonIndent_raw_pos : 1 ≤ Line.commonIndent (raw (first :: rest)) := by
  refine Segment.commonIndent_pos ?_ (exists_nonblank_raw hi rest)
  intro line hl
  exact isText_of_mem_taken ((dropTrailingBlank_isPrefix _).subset hl)

/-- The region ends with its last line that is not blank, and all its lines lose their common indentation. -/
private theorem outdents_raw : ∃ last, front.length < last ∧ last ≤ nextAt (front ++ first :: rest) front.length ∧
    (∃ line ∈ (front ++ first :: rest)[last - 1]?, line.isBlank = false) ∧
    (∀ i line, last ≤ i → i < nextAt (front ++ first :: rest) front.length →
      line ∈ (front ++ first :: rest)[i]? → line.isBlank = true) ∧
    ∃ c, 1 ≤ c ∧ List.Forall₂ (Line.Outdents c) (((front ++ first :: rest).take last).drop front.length)
      (read (first :: rest)).lines := by
  have hne := raw_ne_nil hi rest
  have hpos : 0 < (raw (first :: rest)).length := List.length_pos_iff.2 hne
  obtain ⟨blanks, htaken, hblanks⟩ := taken_eq_raw_append (first :: rest)
  have hparts : first :: rest = raw (first :: rest) ++ (blanks ++ (read (first :: rest)).rest) := by
    rw [← List.append_assoc, ← htaken, taken_append_rest]
  have hnext := nextAt_append front (first :: rest)
  rw [htaken, List.length_append] at hnext
  refine ⟨front.length + (raw (first :: rest)).length, by omega, by omega, ?_, ?_,
    Line.commonIndent (raw (first :: rest)), commonIndent_raw_pos hi rest, ?_⟩
  · have hlast : (front ++ first :: rest)[front.length + (raw (first :: rest)).length - 1]? =
        some ((raw (first :: rest)).getLast hne) := by
      have hget := getElem?_last_middle front (blanks ++ (read (first :: rest)).rest) hne
      rwa [← hparts, List.getLast?_eq_some_getLast hne] at hget
    exact ⟨_, hlast, isBlank_getLast_raw hne⟩
  · intro i line hlast hlt hl
    rw [hparts, ← List.append_assoc] at hl
    refine hblanks line (mem_of_getElem?_middle ?_ ?_ hl)
    · rwa [List.length_append]
    · rw [List.length_append]
      omega
  · have hslice : ((front ++ first :: rest).take (front.length + (raw (first :: rest)).length)).drop front.length =
        raw (first :: rest) := by
      have hmiddle := drop_take_middle front (raw (first :: rest)) (blanks ++ (read (first :: rest)).rest)
      rwa [← hparts] at hmiddle
    rw [hslice]
    exact Line.outdents_dedent _

/-- If none of its lines is made of spaces alone, a region has a line of text. -/
private theorem exists_isText_read (hsolid : ∀ line ∈ taken (first :: rest), line.Solid) :
    ∃ line ∈ (read (first :: rest)).lines, line.isText = true := by
  refine Line.exists_isText_dedent ?_ (exists_nonblank_raw hi rest)
  intro line hl
  exact hsolid line ((dropTrailingBlank_isPrefix _).subset hl)

private theorem spans_append :
    Spans (front ++ first :: rest) front.length (nextAt (front ++ first :: rest) front.length)
    (read (first :: rest)) := by
  have htaken_ne : taken (first :: rest) ≠ [] := by simp [taken, Line.isText_of_isIndented hi]
  have hpos : 0 < (taken (first :: rest)).length := List.length_pos_iff.2 htaken_ne
  have hnext := nextAt_append front (first :: rest)
  constructor
  case start_lt => omega
  case le_length => exact Nat.sub_le _ _
  case rest_eq => exact rest_eq_drop_nextAt front (first :: rest)
  case ends => exact fun line hl => isText_at_nextAt hl
  case inside => exact fun i line hle hlt hl => isText_of_mem_taken (mem_taken_of_lt_nextAt hle hlt hl)
  case outdents => exact outdents_raw hi front rest
  case flush =>
    intro hsolid
    have htext : ∃ line ∈ (read (first :: rest)).lines, line.isText = true := by
      apply exists_isText_read hi
      intro line hl
      obtain ⟨i, hle, hlt, hget⟩ := getElem?_of_mem_middle front (read (first :: rest)).rest hl
      rw [taken_append_rest] at hget
      exact hsolid i line hle (by omega) hget
    exact ⟨htext, Line.dedent_eq_self htext⟩
  case finish => exact blankFinish_iff htaken_ne

end

/-- From an indented line on, a region reaches up to the next line of text or the end, over no line of text. It holds
the lines up to the last one that is not blank with their numbers and offsets, and each of them that is not blank has
lost the same spaces, at least one. If none of the lines is made of spaces alone, one of those that are left is a line
of text, and no common indentation is left. A blank line is said to follow exactly if the region reaches the end or
ends in a blank line. -/
theorem spans_read {lines : List Line} {start : Nat} {first : Line} (hfirst : lines[start]? = some first)
    (hi : first.isIndented = true) : Spans lines start (nextAt lines start) (read (lines.drop start)) := by
  obtain ⟨hlt, hget⟩ := List.getElem?_eq_some_iff.1 hfirst
  have hlength : (lines.take start).length = start := by
    rw [List.length_take]
    omega
  have hdrop : lines.drop start = first :: lines.drop (start + 1) := by
    rw [List.drop_eq_getElem_cons hlt, hget]
  have hlines : lines.take start ++ first :: lines.drop (start + 1) = lines := by
    rw [← hdrop, List.take_append_drop]
  have h := spans_append hi (lines.take start) (lines.drop (start + 1))
  rwa [hlines, hlength, ← hdrop] at h

/-- A definition of two paragraphs, the second one indented further, in front of a blank line and the next term. -/
theorem spans_read_definition :
    (Line.split 8 "size\n    The width,\n\n      in pixels.\n\nend".toList)[1]? =
        some ⟨2, 5, "    The width,".toList⟩ ∧
      Spans (Line.split 8 "size\n    The width,\n\n      in pixels.\n\nend".toList) 1 5
        (read ((Line.split 8 "size\n    The width,\n\n      in pixels.\n\nend".toList).drop 1)) := by
  have hfirst : (Line.split 8 "size\n    The width,\n\n      in pixels.\n\nend".toList)[1]? =
      some ⟨2, 5, "    The width,".toList⟩ := by decide
  have hnext : nextAt (Line.split 8 "size\n    The width,\n\n      in pixels.\n\nend".toList) 1 = 5 := by decide
  rw [← hnext]
  exact ⟨hfirst, spans_read hfirst (by decide)⟩

end Region

end LispDoc
