import LispDoc.Proofs.Docstring.Warnings

/-!
# Blank lines between docstrings

Lines, blank lines and then lines of which the first is one of text are read like the lines on both sides, one after the
other (`Docstring.ofLines_gap`). The blank lines end whatever the first part ends with, at every depth, just as the end
of a docstring does: a region reads the same lines (`IsGap.read_append`). Only a definition list goes on. If the first
part ends with one and the second starts with one, the two become a single list, which is what `fuse` is for.
-/

namespace LispDoc

/-! ### Sequences that may grow together -/

section

variable {α β : Type} {merge : α → α → Option α}

/-- One sequence after the other, where the last of the first and the first of the second become one if they merge. -/
def fuse (merge : α → α → Option α) (as bs : List α) : List α :=
  match as.getLast?.bind fun a => bs.head?.bind (merge a) with
  | some c => as.dropLast ++ c :: bs.tail
  | none => as ++ bs

private theorem fuse_nil_left (bs : List α) : fuse merge [] bs = bs := by simp [fuse]

private theorem fuse_nil_right (as : List α) : fuse merge as [] = as := by simp [fuse]

theorem fuse_cons {as : List α} (h : as ≠ []) (a : α) (bs : List α) :
    fuse merge (a :: as) bs = a :: fuse merge as bs := by
  obtain ⟨last, hlast⟩ := Option.ne_none_iff_exists'.1 (mt List.getLast?_eq_none_iff.1 h)
  rw [fuse, fuse, List.getLast?_cons, hlast, Option.getD_some, Option.bind_some, List.dropLast_cons_of_ne_nil h]
  cases bs.head?.bind (merge last) <;> rfl

private theorem fuse_cons_of_forall {a : α} (h : ∀ b, merge a b = none) (as bs : List α) :
    fuse merge (a :: as) bs = a :: fuse merge as bs := by
  rcases as with _ | ⟨next, as⟩
  · rw [fuse_nil_left]
    cases bs <;> simp [fuse, h]
  · exact fuse_cons (List.cons_ne_nil _ _) a bs

private theorem map_fuse {merge' : β → β → Option β} {f : α → β} {as : List α}
    (h : ∀ a ∈ as, ∀ b, merge' (f a) (f b) = (merge a b).map f) (bs : List α) :
    (fuse merge as bs).map f = fuse merge' (as.map f) (bs.map f) := by
  have hmerged : ((as.map f).getLast?.bind fun a => (bs.map f).head?.bind (merge' a)) =
      (as.getLast?.bind fun a => bs.head?.bind (merge a)).map f := by
    rw [List.getLast?_map, List.head?_map]
    cases ha : as.getLast? with
    | none => rfl
    | some a =>
      cases bs.head? with
      | none => rfl
      | some b => exact h a (List.mem_of_getLast? ha) b
  rw [fuse, fuse, hmerged]
  cases as.getLast?.bind fun a => bs.head?.bind (merge a) with
  | none => exact List.map_append
  | some c => simp

private theorem flatMap_fuse {f : α → List β} {as : List α}
    (h : ∀ a ∈ as.getLast?, ∀ b c, merge a b = some c → f c = f a ++ f b) (bs : List α) :
    (fuse merge as bs).flatMap f = as.flatMap f ++ bs.flatMap f := by
  rw [fuse]
  cases hm : as.getLast?.bind fun a => bs.head?.bind (merge a) with
  | none => exact List.flatMap_append
  | some c =>
    obtain ⟨a, ha, hm⟩ := Option.bind_eq_some_iff.1 hm
    obtain ⟨b, hb, hc⟩ := Option.bind_eq_some_iff.1 hm
    obtain ⟨bs, rfl⟩ := List.head?_eq_some_iff.1 hb
    obtain ⟨as, rfl⟩ := List.getLast?_eq_some_iff.1 ha
    simp [h a ha b c hc]

end

/-! ### Regions before a gap -/

theorem Segment.cut_blanks {gap : List Line} (hgap : ∀ line ∈ gap, line.isBlank = true) (bs : List Line) :
    cut (gap ++ bs) = cut bs := by
  induction gap with
  | nil => rfl
  | cons line gap ih =>
    rw [List.cons_append, cut_of_isBlank (hgap line (by simp)), ih fun l hl => hgap l (by simp [hl])]

/-- Blank lines, at least one, in front of a line of text or of the end. -/
structure IsGap (gap bs : List Line) : Prop where
  ne_nil : gap ≠ []
  blank : ∀ line ∈ gap, line.isBlank = true
  text : ∀ line ∈ bs.head?, line.isText = true

/-- What is left after a region that leaves `rest` of the lines before the gap: one that leaves nothing takes the gap as
well. -/
def beyond (gap bs rest : List Line) : List Line := if rest.isEmpty then bs else rest ++ (gap ++ bs)

private theorem beyond_of_ne_nil {gap bs rest : List Line} (h : rest ≠ []) :
    beyond gap bs rest = rest ++ (gap ++ bs) := by
  simp [beyond, h]

theorem Region.blankFinish_of_rest {lines : List Line} (h : (read lines).rest = []) :
    (read lines).blankFinish = true := by
  simp only [read] at h ⊢
  rw [h]
  rfl

namespace IsGap

variable {gap bs : List Line} (h : IsGap gap bs)

include h

theorem exists_cons : ∃ line more, gap = line :: more ∧ line.isBlank = true := by
  obtain ⟨line, more, rfl⟩ := List.exists_cons_of_ne_nil h.ne_nil
  exact ⟨line, more, rfl, h.blank line (by simp)⟩

private theorem notText {line : Line} (hl : line ∈ gap) : (!line.isText) = true := by
  rw [Line.isText_of_isBlank (h.blank line hl)]
  rfl

private theorem takeWhile_eq : (gap ++ bs).takeWhile (!·.isText) = gap := by
  rw [List.takeWhile_append_of_pos fun line hl => h.notText hl]
  rcases bs with _ | ⟨next, bs⟩
  · simp
  · simp [h.text next (by simp)]

private theorem dropWhile_eq : (gap ++ bs).dropWhile (!·.isText) = bs := by
  rw [List.dropWhile_append_of_pos fun line hl => h.notText hl]
  rcases bs with _ | ⟨next, bs⟩
  · rfl
  · simp [h.text next (by simp)]

/-- Lines of text end at the gap. -/
private theorem takeWhile_isText (lines : List Line) :
    (lines ++ (gap ++ bs)).takeWhile Line.isText = lines.takeWhile Line.isText := by
  obtain ⟨blank, more, rfl, hblank⟩ := h.exists_cons
  induction lines with
  | nil => simp [Line.isText_of_isBlank hblank]
  | cons line lines ih =>
    rw [List.cons_append]
    by_cases ht : line.isText = true
    · rw [List.takeWhile_cons_of_pos ht, List.takeWhile_cons_of_pos ht, ih]
    · rw [List.takeWhile_cons_of_neg ht, List.takeWhile_cons_of_neg ht]

private theorem dropWhile_isText (lines : List Line) :
    (lines ++ (gap ++ bs)).dropWhile Line.isText = lines.dropWhile Line.isText ++ (gap ++ bs) := by
  obtain ⟨blank, more, rfl, hblank⟩ := h.exists_cons
  induction lines with
  | nil => simp [Line.isText_of_isBlank hblank]
  | cons line lines ih =>
    rw [List.cons_append]
    by_cases ht : line.isText = true
    · rw [List.dropWhile_cons_of_pos ht, List.dropWhile_cons_of_pos ht, ih]
    · rw [List.dropWhile_cons_of_neg ht, List.dropWhile_cons_of_neg ht]
      rfl

private theorem any_head?_append {p : Line → Bool} (hp : ∀ line : Line, line.isBlank = true → p line = false)
    (lines : List Line) : (lines ++ (gap ++ bs)).head?.any p = lines.head?.any p := by
  rcases lines with _ | ⟨line, lines⟩
  · obtain ⟨blank, more, rfl, hblank⟩ := h.exists_cons
    simp [hp blank hblank]
  · rfl

private theorem cut_beyond (rest : List Line) :
    Segment.cut (beyond gap bs rest) = Segment.cut (rest ++ (gap ++ bs)) := by
  rcases rest with _ | ⟨line, rest⟩
  · exact (Segment.cut_blanks h.blank bs).symm
  · rw [beyond_of_ne_nil (List.cons_ne_nil _ _)]

theorem dropTrailingBlank_append (lines : List Line) :
    Region.dropTrailingBlank (lines ++ gap) = Region.dropTrailingBlank lines := by
  rw [Region.dropTrailingBlank, List.reverse_append,
    List.dropWhile_append_of_pos fun line hl => h.blank line (List.mem_reverse.1 hl)]
  rfl

/-- A region that ends at a gap holds the same lines as one that ends with the text. -/
theorem read_append (lines : List Line) :
    Region.read (lines ++ (gap ++ bs)) =
      ⟨(Region.read lines).lines, (Region.read lines).blankFinish, beyond gap bs (Region.read lines).rest⟩ := by
  by_cases hrest : lines.dropWhile (!·.isText) = []
  · -- no text before the gap: the gap is read too, but it is blank
    have hall : lines.takeWhile (!·.isText) = lines := by
      have := List.takeWhile_append_dropWhile (p := fun line : Line => !line.isText) (l := lines)
      rwa [hrest, List.append_nil] at this
    have htake : (lines ++ (gap ++ bs)).takeWhile (!·.isText) = lines ++ gap := by
      rw [List.takeWhile_append, hall, if_pos rfl, h.takeWhile_eq]
    have hdrop : (lines ++ (gap ++ bs)).dropWhile (!·.isText) = bs := by
      rw [List.dropWhile_append, hrest, List.isEmpty_nil, if_pos rfl, h.dropWhile_eq]
    have hlast : (lines ++ gap).getLast?.any Line.isBlank = true := by
      rw [List.getLast?_append_of_ne_nil _ h.ne_nil, List.getLast?_eq_some_getLast h.ne_nil, Option.any_some]
      exact h.blank _ (List.getLast_mem h.ne_nil)
    simp only [Region.read, htake, hdrop, hall, hrest, hlast, h.dropTrailingBlank_append, beyond, List.isEmpty_nil,
      Bool.or_true, Bool.true_or, if_true]
  · have htake : (lines ++ (gap ++ bs)).takeWhile (!·.isText) = lines.takeWhile (!·.isText) := by
      rw [List.takeWhile_append, if_neg]
      intro hlength
      have := congrArg List.length
        (List.takeWhile_append_dropWhile (p := fun line : Line => !line.isText) (l := lines))
      rw [List.length_append, hlength] at this
      exact hrest (List.length_eq_zero_iff.1 (by omega))
    have hdrop : (lines ++ (gap ++ bs)).dropWhile (!·.isText) = lines.dropWhile (!·.isText) ++ (gap ++ bs) := by
      rw [List.dropWhile_append, if_neg (by simpa using hrest)]
    obtain ⟨next, more, hnext⟩ := List.exists_cons_of_ne_nil hrest
    simp only [Region.read, htake, hdrop, hnext]
    rfl

end IsGap

/-! ### Segments before a gap -/

namespace Segment

/-- Two definition lists merge. -/
def merge? : Segment → Segment → Option Segment
  | definitions items _, definitions more intruder => some (definitions (items ++ more) intruder)
  | _, _ => none

private theorem cut_ne_nil {line : Line} (h : line.isText = true) (rest : List Line) : cut (line :: rest) ≠ [] := by
  intro hnil
  have hfirst := first?_head?_cut (line :: rest)
  rw [hnil, List.find?_cons_of_pos (by simp [Line.isBlank_of_isText h])] at hfirst
  simp at hfirst

theorem isText_of_head?_definitionRun {finish : Bool} {lines : List Line}
    (h : ∀ line ∈ lines.head?, line.isText = true) :
    ∀ line ∈ (definitionRun finish lines).2.2.head?, line.isText = true := by
  fun_induction definitionRun finish lines with
  | case1 finish term next rest hc region run ih => exact ih fun line hl => Region.isText_of_head?_rest hl
  | case2 => exact h
  | case3 => exact h

variable {gap bs : List Line}

/-- A run of definitions that reaches the gap goes on after it, as after any blank line. -/
private theorem definitionRun_beyond (h : IsGap gap bs) {finish : Bool} {lines : List Line}
    (hfinish : lines = [] → finish = true) :
    definitionRun finish (beyond gap bs lines) =
      let run := definitionRun finish lines
      let next := definitionRun true bs
      if run.2.2.isEmpty then (run.1 ++ next.1, next.2) else (run.1, run.2.1, beyond gap bs run.2.2) := by
  induction finish, lines using run_induction with
  | item finish term next rest hc ih =>
    have hread := h.read_append (next :: rest)
    rw [List.cons_append] at hread
    rw [beyond_of_ne_nil (List.cons_ne_nil _ _), List.cons_append, List.cons_append, definitionRun_of_item hc,
      definitionRun_of_item hc, hread]
    simp only [ih Region.blankFinish_of_rest]
    split <;> rfl
  | stop finish lines hstop =>
    rw [definitionRun_of_not_startsItem hstop]
    rcases lines with _ | ⟨line, rest⟩
    · rw [hfinish rfl]
      rfl
    · -- the first line after the gap cannot make a term of the line before it
      have hbeyond : startsItem ((line :: rest) ++ (gap ++ bs)) = false := by
        rw [startsItem, List.cons_append, List.tail_cons, h.any_head?_append fun _ hb => Line.isIndented_of_isBlank hb]
        exact hstop
      rw [beyond_of_ne_nil (List.cons_ne_nil _ _), definitionRun_of_not_startsItem hbeyond]
      rfl

/-- A definition list fused with what comes after the gap is one whose run goes on there. -/
private theorem fuse_definitions_cut (hbs : ∀ line ∈ bs.head?, line.isText = true) (items : List (Line × List Line)) :
    fuse merge? [.definitions items none] (cut bs) =
      let next := definitionRun true bs
      .definitions (items ++ next.1) (if next.2.1 then none else next.2.2.head?) :: cut next.2.2 := by
  rcases bs with _ | ⟨line, rest⟩
  · simp [fuse, definitionRun]
  have htext : line.isText = true := hbs line (by simp)
  cases hi : rest.head?.any Line.isIndented with
  | true =>
    rcases rest with _ | ⟨next, rest⟩
    · simp at hi
    · have hc : (line.isText && next.isIndented) = true := by simpa [htext] using hi
      rw [cut_of_term htext hi, definitionRun_of_item hc]
      rfl
  | false =>
    have hstop : startsItem (line :: rest) = false := by simpa [startsItem, htext] using hi
    have hrun : definitionRun true (line :: rest) = ([], true, line :: rest) := definitionRun_of_not_startsItem hstop
    simp [hrun, cut_of_isText htext hi, fuse, merge?]

/-- Lines, a gap and lines after it fall into the segments of both, except that definition lists on both sides of the
gap become one. -/
private theorem cut_gap (h : IsGap gap bs) (as : List Line) : cut (as ++ (gap ++ bs)) = fuse merge? (cut as)
    (cut bs) := by
  fun_induction cut as with
  | case1 => rw [List.nil_append, cut_blanks h.blank, fuse_nil_left]
  | case2 line rest hk ih => rw [List.cons_append, cut_of_isBlank (by simp [Line.isBlank, hk]), ih]
  | case3 line rest hk region ih =>
    have hread : Region.read (line :: (rest ++ (gap ++ bs))) =
        ⟨region.lines, region.blankFinish, beyond gap bs region.rest⟩ := h.read_append (line :: rest)
    rw [List.cons_append, cut_of_isIndented (by simp [Line.isIndented, hk]), hread, h.cut_beyond, ih,
      fuse_cons_of_forall fun _ => rfl]
  | case4 line rest hk hi region run ih =>
    have htext : line.isText = true := by simp [Line.isText, hk]
    have hnext : (rest ++ (gap ++ bs)).head?.any Line.isIndented = true := by
      rcases rest with _ | ⟨next, rest⟩
      · simp at hi
      · simpa using hi
    have hread : Region.read (rest ++ (gap ++ bs)) =
        ⟨region.lines, region.blankFinish, beyond gap bs region.rest⟩ := h.read_append rest
    have hrun : definitionRun region.blankFinish (beyond gap bs region.rest) =
        if run.2.2.isEmpty then (run.1 ++ (definitionRun true bs).1, (definitionRun true bs).2)
        else (run.1, run.2.1, beyond gap bs run.2.2) := definitionRun_beyond h Region.blankFinish_of_rest
    rw [List.cons_append, cut_of_term htext hnext, hread]
    simp only [hrun]
    rcases hrest : run.2.2 with _ | ⟨next, more⟩
    · -- the run reaches the gap
      have hfuse := fuse_definitions_cut h.text ((line, region.lines) :: run.1)
      simpa [cut] using hfuse.symm
    · have hhead : ∀ l ∈ run.2.2.head?, l.isText = true :=
        isText_of_head?_definitionRun fun _ hl => Region.isText_of_head?_rest hl
      rw [hrest] at ih
      rw [fuse_cons (cut_ne_nil (hhead next (by simp [hrest])) more), ← ih, ← h.cut_beyond]
      rfl
  | case5 line rest hk hi ih =>
    have htext : line.isText = true := by simp [Line.isText, hk]
    have hnext : (rest ++ (gap ++ bs)).head?.any Line.isIndented = false := by
      rw [h.any_head?_append fun _ hb => Line.isIndented_of_isBlank hb]
      simpa using hi
    have hintruder : (rest.dropWhile Line.isText ++ (gap ++ bs)).head?.filter Line.isIndented =
        (rest.dropWhile Line.isText).head?.filter Line.isIndented := by
      rcases rest.dropWhile Line.isText with _ | ⟨next, more⟩
      · obtain ⟨blank, more, rfl, hblank⟩ := h.exists_cons
        simp [Line.isIndented_of_isBlank hblank]
      · rfl
    rw [List.cons_append, cut_of_isText htext hnext, h.takeWhile_isText, h.dropWhile_isText, hintruder,
      h.any_head?_append fun _ hb => Line.isText_of_isBlank hb, ih, fuse_cons_of_forall fun _ => rfl]

theorem cut_append_blanks (as : List Line) {gap : List Line} (hgap : ∀ line ∈ gap, line.isBlank = true) :
    cut (as ++ gap) = cut as := by
  rcases gap with _ | ⟨line, gap⟩
  · rw [List.append_nil]
  · have hend : IsGap (line :: gap) [] := ⟨List.cons_ne_nil _ _, hgap, by simp⟩
    have hcut := cut_gap hend as
    rwa [List.append_nil, cut_nil, fuse_nil_right] at hcut

end Segment

/-! ### Blocks before a gap -/

/-- Two definition lists merge into one that starts with the first. -/
def Block.merge? : Block → Block → Option Block
  | definitionList items origin, definitionList more _ => some (definitionList (items ++ more) origin)
  | _, _ => none

namespace Docstring

/-- One after the other, where definition lists that meet become one. -/
def Parsed.followedBy (first second : Parsed) : Parsed :=
  ⟨fuse Block.merge? first.blocks second.blocks, first.diagnostics ++ second.diagnostics⟩

theorem ofLines_congr {as bs : List Line} (h : Segment.cut as = Segment.cut bs) (inline : List Char → List Inline)
    (source : Source) : ofLines inline source as = ofLines inline source bs := by
  rw [ofLines_eq, ofLines_eq, h]

private theorem merge?_blockOf {lines : List Line} {s : Segment} (hs : s.DrawnFrom lines)
    (inline : List Char → List Inline) (source : Source) (nested : List Line → List Block) (t : Segment) :
    (blockOf inline source nested s).merge? (blockOf inline source nested t) =
      (s.merge? t).map (blockOf inline source nested) := by
  cases s with
  | paragraph ls intruder => rfl
  | quote first region => rfl
  | definitions items intruder =>
    cases t with
    | paragraph ls intruder => rfl
    | quote first region => rfl
    | definitions more intruder =>
      -- the first list has items, and so starts where both start
      obtain ⟨item, items, rfl⟩ := List.exists_cons_of_ne_nil hs.1
      simp [blockOf, Block.merge?, Segment.merge?]

/-- The last segment has no line out of place beside it, since nothing follows it. -/
private theorem intruder_getLast? {text : List Char} {lines : List Line} (hrun : Line.Run text lines) {s : Segment}
    (h : s ∈ (Segment.cut lines).getLast?) : s.intruder = none := by
  obtain ⟨init, hinit⟩ := List.getLast?_eq_some_iff.1 h
  have hlast : [s] <:+ Segment.cut lines := by
    rw [hinit]
    exact List.suffix_append _ _
  rw [Segment.intruder_eq hrun hlast]
  rfl

theorem ofLines_gap (inline : List Char → List Inline) (source : Source) {text : List Char} {gap as bs : List Line}
    (hrun : Line.Run text as) (h : IsGap gap bs) :
    ofLines inline source (as ++ (gap ++ bs)) = (ofLines inline source as).followedBy (ofLines inline source bs) := by
  have hblocks : (ofLines inline source (as ++ (gap ++ bs))).blocks =
      fuse Block.merge? (ofLines inline source as).blocks (ofLines inline source bs).blocks := by
    rw [blocks_ofLines, blocks_ofLines, blocks_ofLines, Segment.cut_gap h]
    exact map_fuse (fun s hs t => merge?_blockOf (Segment.drawnFrom_of_mem_cut hs) inline source _ t) _
  have hdiagnostics : (ofLines inline source (as ++ (gap ++ bs))).diagnostics =
      (ofLines inline source as).diagnostics ++ (ofLines inline source bs).diagnostics := by
    rw [diagnostics_ofLines_cut, diagnostics_ofLines_cut, diagnostics_ofLines_cut, Segment.cut_gap h]
    apply flatMap_fuse
    intro s hs t merged hmerged
    -- a list that goes on after the gap has said nothing about a line after it
    have hintruder := intruder_getLast? hrun hs
    cases s with
    | paragraph ls intruder => cases hmerged
    | quote first region => cases hmerged
    | definitions items intruder =>
      cases t with
      | paragraph ls intruder => cases hmerged
      | quote first region => cases hmerged
      | definitions more intruder =>
        obtain rfl := Option.some.inj hmerged
        obtain rfl := hintruder
        simp [Segment.regions, Segment.intruder, messageOf, warnings]
  rw [Parsed.followedBy, ← hblocks, ← hdiagnostics]

/-- A blank line is enough of a gap if the lines after it start without indentation. -/
theorem ofLines_append_blank (inline : List Char → List Inline) (source : Source) {text : List Char} {as bs : List Line}
    (hrun : Line.Run text as) {blank : Line} (hblank : blank.isBlank = true)
    (hbs : ∀ line ∈ bs.find? (!·.isBlank), line.isIndented = false) :
    ofLines inline source (as ++ blank :: bs) = (ofLines inline source as).followedBy (ofLines inline source bs) := by
  have htake : ∀ line ∈ bs.takeWhile Line.isBlank, line.isBlank = true :=
    fun line hl => List.all_eq_true.1 List.all_takeWhile line hl
  have hgap : IsGap (blank :: bs.takeWhile Line.isBlank) (bs.dropWhile Line.isBlank) := by
    refine ⟨List.cons_ne_nil _ _, List.forall_mem_cons.2 ⟨hblank, htake⟩, ?_⟩
    intro line hl
    have hnot := List.head?_dropWhile_not Line.isBlank bs
    rw [hl] at hnot
    rw [List.find?_eq_head?_dropWhile_not] at hbs
    simp only [Bool.not_not] at hbs
    exact Line.isText_of_not (by simpa using hnot) (hbs line hl)
  have hlines : bs.takeWhile Line.isBlank ++ bs.dropWhile Line.isBlank = bs := List.takeWhile_append_dropWhile
  have hcut : Segment.cut (bs.dropWhile Line.isBlank) = Segment.cut bs := by
    rw [← Segment.cut_blanks htake, hlines]
  have hread := ofLines_gap inline source hrun hgap
  rwa [List.cons_append, hlines, ofLines_congr hcut] at hread

end Docstring

end LispDoc
