import LispDoc.Docstring.Line

/-!
# Segments of a sequence of lines

The lines of a docstring, or of a region inside it, fall into segments: paragraphs, definition lists and quotes. A line
of text followed by an indented line is a term, and its definition is the indented region after it; terms that follow
each other make one list. Other lines of text make a paragraph with the lines of text after them, and an indented
region that no term precedes is a quote. Blank lines only separate.

The regions inside a segment weigh less than the lines it comes from (`Segment.weight_region_lt`), so that parsing them
in turn ends.
-/

namespace LispDoc

inductive Segment where
  /-- lines of text, and the indented line that follows directly, if one does -/
  | paragraph (lines : List Line) (intruder : Option Line)
  /-- terms with their regions, and the line that follows without a blank line, if one does -/
  | definitions (items : List (Line × List Line)) (intruder : Option Line)
  /-- the first line as it stood, and the region -/
  | quote (first : Line) (lines : List Line)

namespace Segment

/-- The regions inside a segment. -/
def regions : Segment → List (List Line)
  | paragraph .. => []
  | definitions items _ => items.map (·.2)
  | quote _ lines => [lines]

/-- The number of lines and characters. -/
def weight : List Line → Nat
  | [] => 0
  | line :: lines => line.text.length + 1 + weight lines

/-- Terms and their regions at the front; `finish` tells whether a blank line precedes. With them comes whether a blank
line follows the last of them, and the lines after it. -/
def definitionRun (finish : Bool) : List Line → List (Line × List Line) × Bool × List Line
  | term :: next :: rest =>
    if term.isText && next.isIndented then
      let region := Region.read (next :: rest)
      let run := definitionRun region.blankFinish region.rest
      ((term, region.lines) :: run.1, run.2)
    else ([], finish, term :: next :: rest)
  | lines => ([], finish, lines)
termination_by lines => lines.length
decreasing_by
  have : ((next :: rest).dropWhile (!·.isText)).length ≤ (next :: rest).length :=
    (List.dropWhile_sublist _).length_le
  simp only [Region.read, List.length_cons] at this ⊢; omega

/-! ### Weights -/

@[simp] theorem weight_nil : weight [] = 0 := rfl

@[simp] theorem weight_cons (line : Line) (lines : List Line) :
    weight (line :: lines) = line.text.length + 1 + weight lines := rfl

theorem weight_append (as bs : List Line) : weight (as ++ bs) = weight as + weight bs := by
  induction as with
  | nil => simp
  | cons a as ih => simp [ih, Nat.add_assoc]

theorem weight_sublist {as bs : List Line} (h : as.Sublist bs) : weight as ≤ weight bs := by
  induction h with
  | slnil => simp
  | cons a _ ih => simp; omega
  | cons_cons a _ ih => simp; omega

theorem weight_map_drop (n : Nat) (lines : List Line) : weight (lines.map (Line.drop n)) ≤ weight lines := by
  induction lines with
  | nil => simp
  | cons line lines ih => simp [Line.drop]; omega

theorem isBlank_iff (line : Line) : line.isBlank = true ↔ line.text = [] := by
  unfold Line.isBlank Line.kind
  cases line.text with
  | nil => simp
  | cons c cs => by_cases h : c = ' ' <;> simp [h]

theorem isIndented_iff (line : Line) : line.isIndented = true ↔ line.text.head? = some ' ' := by
  unfold Line.isIndented Line.kind
  cases line.text with
  | nil => simp
  | cons c cs => by_cases h : c = ' ' <;> simp [h]

theorem isText_iff (line : Line) : line.isText = true ↔ ∃ c cs, line.text = c :: cs ∧ c ≠ ' ' := by
  unfold Line.isText Line.kind
  cases line.text with
  | nil => simp
  | cons c cs => by_cases h : c = ' ' <;> simp [h]

theorem indent_pos {line : Line} (hb : line.isBlank = false) (ht : line.isText = false) : 0 < line.indent := by
  unfold Line.indent
  cases h : line.text with
  | nil => simp [Line.isBlank, Line.kind, h] at hb
  | cons c cs =>
    by_cases hc : c = ' '
    · simp [hc]
    · simp [Line.isText, Line.kind, h, hc] at ht

/-- Lines that are all blank or indented, one of them indented, share an indentation. -/
theorem commonIndent_pos {lines : List Line} (ht : ∀ l ∈ lines, l.isText = false)
    (hb : ∃ l ∈ lines, l.isBlank = false) : 0 < Line.commonIndent lines := by
  obtain ⟨l, hl, hlb⟩ := hb
  unfold Line.commonIndent
  cases hm : ((lines.filter (!·.isBlank)).map Line.indent).min? with
  | none =>
    have hmem : l.indent ∈ (lines.filter (!·.isBlank)).map Line.indent :=
      List.mem_map.2 ⟨l, List.mem_filter.2 ⟨hl, by simp [hlb]⟩, rfl⟩
    rw [List.min?_eq_none_iff.1 hm] at hmem
    simp at hmem
  | some n =>
    have hn := List.min?_mem hm
    obtain ⟨k, hk, rfl⟩ := List.mem_map.1 hn
    obtain ⟨hk, hkb⟩ := List.mem_filter.1 hk
    simp only [Option.getD_some]
    exact indent_pos (by simpa using hkb) (ht k hk)

/-- A region whose first line is indented weighs less than the lines it is read from. -/
theorem weight_region_read {line : Line} {rest : List Line} (h : line.isIndented = true) :
    weight (Region.read (line :: rest)).lines < weight (line :: rest) := by
  have htext : line.isText = false := by
    simp only [Line.isIndented, Line.isText] at h ⊢; cases hk : line.kind <;> simp_all
  have hblank : line.isBlank = false := by
    simp only [Line.isIndented, Line.isBlank] at h ⊢; cases hk : line.kind <;> simp_all
  have htake : (line :: rest).takeWhile (!·.isText) = line :: rest.takeWhile (!·.isText) := by simp [htext]
  have hfirst : ∃ more, Region.dropTrailingBlank (line :: rest.takeWhile (!·.isText)) = line :: more ∧
      more.Sublist (rest.takeWhile (!·.isText)) := by
    refine ⟨Region.dropTrailingBlank (rest.takeWhile (!·.isText)), ?_, ?_⟩
    · simp only [Region.dropTrailingBlank, List.reverse_cons, List.dropWhile_append]
      split
      · next he => simp [hblank, List.isEmpty_iff.1 he]
      · simp
    · have : ((rest.takeWhile (!·.isText)).reverse.dropWhile Line.isBlank).reverse.Sublist
          (rest.takeWhile (!·.isText)).reverse.reverse := (List.dropWhile_sublist _).reverse
      simpa [Region.dropTrailingBlank] using this
  obtain ⟨more, heq, hsub⟩ := hfirst
  have hread : (Region.read (line :: rest)).lines = Line.dedent (line :: more) := by
    simp only [Region.read, htake, heq]
  have hall : ∀ l ∈ line :: more, l.isText = false := by
    intro l hl
    have : l ∈ (line :: rest).takeWhile (!·.isText) := by
      rw [htake]
      rcases List.mem_cons.1 hl with rfl | hl
      · exact List.mem_cons_self
      · exact List.mem_cons_of_mem _ (hsub.subset hl)
    simpa using List.all_eq_true.1 List.all_takeWhile l this
  have hpos := commonIndent_pos hall ⟨line, List.mem_cons_self, hblank⟩
  have hlen : 0 < line.text.length := by
    cases ht : line.text with
    | nil => simp [Line.isBlank, Line.kind, ht] at hblank
    | cons c cs => simp
  have hmore : weight (more.map (Line.drop (Line.commonIndent (line :: more)))) ≤ weight rest :=
    Nat.le_trans (weight_map_drop _ more)
      (weight_sublist (hsub.trans (List.takeWhile_sublist _)))
  rw [hread, Line.dedent, List.map_cons, weight_cons, weight_cons]
  simp only [Line.drop, List.length_drop] at hmore ⊢
  omega

theorem read_rest_sublist (lines : List Line) : (Region.read lines).rest.Sublist lines :=
  List.dropWhile_sublist _

/-- What follows an indented line's region is shorter than the lines it is read from. -/
theorem length_read_rest {line : Line} {rest : List Line} (h : line.isText = false) :
    (Region.read (line :: rest)).rest.length ≤ rest.length := by
  have : (Region.read (line :: rest)).rest = rest.dropWhile (!·.isText) := by simp [Region.read, h]
  rw [this]
  exact (List.dropWhile_sublist _).length_le

theorem definitionRun_rest_sublist (finish : Bool) (lines : List Line) :
    (definitionRun finish lines).2.2.Sublist lines := by
  fun_induction definitionRun finish lines with
  | case1 finish term next rest _ region run ih =>
    exact ih.trans ((read_rest_sublist (next :: rest)).trans (List.sublist_cons_self _ _))
  | case2 => exact .refl _
  | case3 => exact .refl _

theorem definitionRun_region_lt {finish : Bool} {lines : List Line} {item : Line × List Line}
    (h : item ∈ (definitionRun finish lines).1) : weight item.2 < weight lines := by
  fun_induction definitionRun finish lines with
  | case1 finish term next rest hc region run ih =>
    have hn : next.isIndented = true := (Bool.and_eq_true_iff.1 hc).2
    rcases List.mem_cons.1 h with rfl | h
    · have hlt : weight region.lines < weight (next :: rest) := weight_region_read hn
      rw [weight_cons]; exact Nat.lt_add_left _ hlt
    · have hle : weight region.rest ≤ weight (next :: rest) := weight_sublist (read_rest_sublist (next :: rest))
      rw [weight_cons]; exact Nat.lt_add_left _ (Nat.lt_of_lt_of_le (ih h) hle)
  | case2 => simp at h
  | case3 => simp at h

/-! ### Cutting lines into segments -/

/-- The segments of a sequence of lines. -/
def cut : List Line → List Segment
  | [] => []
  | line :: rest =>
    match _hk : line.kind with
    | .blank => cut rest
    | .indented =>
      let region := Region.read (line :: rest)
      .quote line region.lines :: cut region.rest
    | .text =>
      if rest.head?.any Line.isIndented then
        let region := Region.read rest
        let run := definitionRun region.blankFinish region.rest
        .definitions ((line, region.lines) :: run.1) (if run.2.1 then none else run.2.2.head?) :: cut run.2.2
      else
        .paragraph (line :: rest.takeWhile Line.isText)
          (if rest.head?.any Line.isText then (rest.dropWhile Line.isText).head?.filter Line.isIndented else none) ::
          cut (rest.dropWhile Line.isText)
termination_by lines => lines.length
decreasing_by
  · simp
  · exact Nat.lt_succ_of_le (length_read_rest (by simp [Line.isText, _hk]))
  · have h1 := (definitionRun_rest_sublist region.blankFinish region.rest).length_le
    have h2 := (read_rest_sublist rest).length_le
    exact Nat.lt_succ_of_le (Nat.le_trans h1 h2)
  · exact Nat.lt_succ_of_le (List.dropWhile_sublist _).length_le

/-- The regions inside a segment weigh less than the lines that were cut. -/
theorem weight_region_lt {lines : List Line} {s : Segment} (hs : s ∈ cut lines) {region : List Line}
    (hr : region ∈ s.regions) : weight region < weight lines := by
  fun_induction cut lines with
  | case1 => simp at hs
  | case2 line rest hk ih => have := ih hs; simp only [weight_cons]; omega
  | case3 line rest hk r ih =>
    rcases List.mem_cons.1 hs with rfl | hs
    · simp only [regions, List.mem_singleton] at hr
      subst hr
      exact weight_region_read (by simp [Line.isIndented, hk])
    · have hle : weight r.rest ≤ weight (line :: rest) := weight_sublist (read_rest_sublist (line :: rest))
      exact Nat.lt_of_lt_of_le (ih hs) hle
  | case4 line rest hk hi r run ih =>
    have h2 : weight r.rest ≤ weight rest := weight_sublist (read_rest_sublist rest)
    have h1 : weight run.2.2 ≤ weight r.rest := weight_sublist (definitionRun_rest_sublist r.blankFinish r.rest)
    rw [weight_cons]
    refine Nat.lt_add_left _ ?_
    rcases List.mem_cons.1 hs with rfl | hs
    · simp only [regions, List.map_cons, List.mem_cons, List.mem_map] at hr
      rcases hr with rfl | ⟨item, hitem, rfl⟩
      · cases rest with
        | nil => simp at hi
        | cons next more => exact weight_region_read (by simpa using hi)
      · exact Nat.lt_of_lt_of_le (definitionRun_region_lt hitem) h2
    · exact Nat.lt_of_lt_of_le (ih hs) (Nat.le_trans h1 h2)
  | case5 line rest hk hi ih =>
    rcases List.mem_cons.1 hs with rfl | hs
    · simp [regions] at hr
    · rw [weight_cons]
      exact Nat.lt_add_left _ (Nat.lt_of_lt_of_le (ih hs) (weight_sublist (List.dropWhile_sublist _)))

end Segment

end LispDoc
