import LispDoc.Docstring.Segment

/-!
# What regions and segments hold

Cutting lines into segments and reading regions neither loses nor repeats a line. The measure is `Line.contents`: the
lines that are not blank, each with its number and its text without the spaces in front, which taking a common
indentation off does not change (`Line.contents_dedent`).

* The contents of the segments of a sequence of lines are the contents of the lines (`Segment.flatMap_contents_cut`).
* A segment is made of consecutive lines and of regions that are consecutive lines up to their common indentation
  (`Segment.drawnFrom_of_mem_cut`), so that whatever holds of the lines and survives both holds of the regions too.

Both need lines that are not made of spaces alone (`Line.Solid`), as the lines of a docstring are.
-/

namespace LispDoc

namespace Line

/-- The text without the spaces in front. -/
def body (line : Line) : List Char := line.text.dropWhile (· == ' ')

/-- A line that is not blank has more than spaces. -/
def Solid (line : Line) : Prop := line.isBlank = false → line.body ≠ []

/-- The lines that are not blank, by number and body. -/
def contents (lines : List Line) : List (Nat × List Char) :=
  (lines.filter (!·.isBlank)).map fun line => (line.number, line.body)

@[simp] theorem contents_nil : contents [] = [] := rfl

theorem contents_cons_of_isBlank {line : Line} (h : line.isBlank = true) (lines : List Line) :
    contents (line :: lines) = contents lines := by
  simp [contents, h]

theorem contents_cons {line : Line} (h : line.isBlank = false) (lines : List Line) :
    contents (line :: lines) = (line.number, line.body) :: contents lines := by
  simp [contents, h]

@[simp] theorem contents_append (as bs : List Line) : contents (as ++ bs) = contents as ++ contents bs := by
  simp [contents]

private theorem contents_eq_nil {lines : List Line} (h : ∀ line ∈ lines, line.isBlank = true) :
    contents lines = [] := by
  induction lines with
  | nil => rfl
  | cons line lines ih =>
    rw [contents_cons_of_isBlank (h line (by simp))]
    exact ih fun l hl => h l (by simp [hl])

/-! ### Kinds -/

theorem isBlank_of_isText {line : Line} (h : line.isText = true) : line.isBlank = false := by
  simp only [isText, isBlank] at h ⊢
  cases hk : line.kind <;> simp_all

theorem isBlank_of_isIndented {line : Line} (h : line.isIndented = true) : line.isBlank = false := by
  simp only [isIndented, isBlank] at h ⊢
  cases hk : line.kind <;> simp_all

theorem isText_of_isIndented {line : Line} (h : line.isIndented = true) : line.isText = false := by
  simp only [isIndented, isText] at h ⊢
  cases hk : line.kind <;> simp_all

theorem isText_of_isBlank {line : Line} (h : line.isBlank = true) : line.isText = false := by
  simp only [isText, isBlank] at h ⊢
  cases hk : line.kind <;> simp_all

theorem isIndented_of_isBlank {line : Line} (h : line.isBlank = true) : line.isIndented = false := by
  simp only [isIndented, isBlank] at h ⊢
  cases hk : line.kind <;> simp_all

theorem isText_of_not {line : Line} (hb : line.isBlank = false) (hi : line.isIndented = false) :
    line.isText = true := by
  simp only [isBlank, isIndented, isText] at hb hi ⊢
  cases hk : line.kind <;> simp_all

theorem body_of_isText {line : Line} (h : line.isText = true) : line.body = line.text := by
  obtain ⟨c, cs, ht, hc⟩ := (Segment.isText_iff line).1 h
  simp [body, ht, hc]

/-! ### Indentation -/

@[simp] theorem drop_number (n : Nat) (line : Line) : (line.drop n).number = line.number := rfl

private theorem dropWhile_drop_of_le (p : Char → Bool) (n : Nat) (cs : List Char)
    (h : n ≤ (cs.takeWhile p).length) : (cs.drop n).dropWhile p = cs.dropWhile p := by
  induction n generalizing cs with
  | zero => rfl
  | succ n ih =>
    cases cs with
    | nil => rfl
    | cons c cs =>
      by_cases hc : p c = true
      · rw [List.takeWhile_cons_of_pos hc, List.length_cons] at h
        rw [List.drop_succ_cons, ih cs (by omega), List.dropWhile_cons_of_pos hc]
      · rw [List.takeWhile_cons_of_neg hc] at h
        simp at h

theorem body_drop {n : Nat} {line : Line} (h : n ≤ line.indent) : (line.drop n).body = line.body :=
  dropWhile_drop_of_le _ n line.text h

theorem isBlank_drop {n : Nat} {line : Line} (hs : line.Solid) (h : line.isBlank = false → n ≤ line.indent) :
    (line.drop n).isBlank = line.isBlank := by
  cases hb : line.isBlank with
  | true =>
    rw [Segment.isBlank_iff] at hb ⊢
    simp [Line.drop, hb]
  | false =>
    have hbody := body_drop (h hb)
    have hne := hs hb
    rw [← hbody, body] at hne
    cases hd : (line.drop n).isBlank with
    | false => rfl
    | true =>
      rw [(Segment.isBlank_iff _).1 hd] at hne
      exact absurd rfl hne

theorem Solid.drop {n : Nat} {line : Line} (hs : line.Solid) (h : line.isBlank = false → n ≤ line.indent) :
    (line.drop n).Solid := by
  intro hb
  rw [isBlank_drop hs h] at hb
  rw [body_drop (h hb)]
  exact hs hb

private theorem contents_map_drop {n : Nat} {lines : List Line} (hs : ∀ line ∈ lines, line.Solid)
    (h : ∀ line ∈ lines, line.isBlank = false → n ≤ line.indent) :
    contents (lines.map (Line.drop n)) = contents lines := by
  induction lines with
  | nil => rfl
  | cons line lines ih =>
    have ih := ih (fun l hl => hs l (by simp [hl])) (fun l hl => h l (by simp [hl]))
    have hblank := isBlank_drop (hs line (by simp)) (h line (by simp))
    rw [List.map_cons]
    cases hb : line.isBlank with
    | true =>
      rw [contents_cons_of_isBlank (hblank.trans hb), contents_cons_of_isBlank hb, ih]
    | false =>
      rw [contents_cons (hblank.trans hb), contents_cons hb, ih, body_drop (h line (by simp) hb), drop_number]

theorem commonIndent_le {lines : List Line} {line : Line} (hl : line ∈ lines) (hb : line.isBlank = false) :
    commonIndent lines ≤ line.indent := by
  have hmem : line.indent ∈ (lines.filter (!·.isBlank)).map indent :=
    List.mem_map.2 ⟨line, List.mem_filter.2 ⟨hl, by simp [hb]⟩, rfl⟩
  unfold commonIndent
  cases hm : ((lines.filter (!·.isBlank)).map indent).min? with
  | none => exact Nat.zero_le _
  | some n => exact (List.min?_eq_some_iff.1 hm).2 _ hmem

theorem contents_dedent {lines : List Line} (hs : ∀ line ∈ lines, line.Solid) :
    contents (dedent lines) = contents lines :=
  contents_map_drop hs fun _ hl hb => commonIndent_le hl hb

theorem solid_of_mem_dedent {lines : List Line} (hs : ∀ line ∈ lines, line.Solid) {line : Line}
    (hl : line ∈ dedent lines) : line.Solid := by
  obtain ⟨l, hmem, rfl⟩ := List.mem_map.1 hl
  exact (hs l hmem).drop fun hb => commonIndent_le hmem hb

end Line

/-! ### Regions -/

namespace Region

theorem dropTrailingBlank_append (lines : List Line) :
    dropTrailingBlank lines ++ (lines.reverse.takeWhile Line.isBlank).reverse = lines := by
  rw [dropTrailingBlank, ← List.reverse_append, List.takeWhile_append_dropWhile, List.reverse_reverse]

theorem dropTrailingBlank_isPrefix (lines : List Line) : dropTrailingBlank lines <+: lines :=
  ⟨_, dropTrailingBlank_append lines⟩

theorem contents_dropTrailingBlank (lines : List Line) :
    Line.contents (dropTrailingBlank lines) = Line.contents lines := by
  have hblank : Line.contents (lines.reverse.takeWhile Line.isBlank).reverse = [] := by
    apply Line.contents_eq_nil
    intro line hl
    exact List.all_eq_true.1 List.all_takeWhile line (List.mem_reverse.1 hl)
  have h := congrArg Line.contents (dropTrailingBlank_append lines)
  rwa [Line.contents_append, hblank, List.append_nil] at h

/-- The lines that a region is read from, before their common indentation is taken off. -/
def raw (lines : List Line) : List Line := dropTrailingBlank (lines.takeWhile (!·.isText))

theorem read_lines (lines : List Line) : (read lines).lines = Line.dedent (raw lines) := rfl

theorem raw_isPrefix (lines : List Line) : raw lines <+: lines :=
  (dropTrailingBlank_isPrefix _).trans (List.takeWhile_prefix _)

theorem read_rest_suffix (lines : List Line) : (read lines).rest <:+ lines := List.dropWhile_suffix _

/-- A region that starts with an indented line keeps it as its first line. -/
theorem raw_cons {line : Line} (h : line.isIndented = true) (rest : List Line) :
    ∃ more, raw (line :: rest) = line :: more := by
  have htake : (line :: rest).takeWhile (!·.isText) = line :: rest.takeWhile (!·.isText) := by
    simp [Line.isText_of_isIndented h]
  rw [raw, htake, dropTrailingBlank, List.reverse_cons, List.dropWhile_append]
  split
  · exact ⟨[], by simp [Line.isBlank_of_isIndented h]⟩
  · exact ⟨_, by rw [List.reverse_append]; rfl⟩

/-- A region and the lines after it hold what the lines hold. -/
private theorem contents_read {lines : List Line} (hs : ∀ line ∈ lines, line.Solid) :
    Line.contents (read lines).lines ++ Line.contents (read lines).rest = Line.contents lines := by
  have hraw : ∀ line ∈ raw lines, line.Solid := fun line hl => hs line ((raw_isPrefix lines).subset hl)
  rw [read_lines, Line.contents_dedent hraw, raw, contents_dropTrailingBlank, ← Line.contents_append]
  exact congrArg Line.contents List.takeWhile_append_dropWhile

end Region

/-! ### Segments -/

namespace Segment

@[simp] theorem cut_nil : cut [] = [] := by rw [cut]

theorem cut_of_isBlank {line : Line} (h : line.isBlank = true) (rest : List Line) : cut (line :: rest) = cut rest := by
  rw [cut]
  split <;> simp_all [Line.isBlank]

theorem cut_of_isIndented {line : Line} (h : line.isIndented = true) (rest : List Line) :
    cut (line :: rest) =
      .quote line (Region.read (line :: rest)).lines :: cut (Region.read (line :: rest)).rest := by
  rw [cut]
  split <;> simp_all [Line.isIndented]

theorem cut_of_term {line : Line} {rest : List Line} (h : line.isText = true)
    (hi : rest.head?.any Line.isIndented = true) :
    cut (line :: rest) =
      let run := definitionRun (Region.read rest).blankFinish (Region.read rest).rest
      .definitions ((line, (Region.read rest).lines) :: run.1) (if run.2.1 then none else run.2.2.head?) ::
        cut run.2.2 := by
  rw [cut]
  split <;> simp_all [Line.isText]

theorem cut_of_isText {line : Line} {rest : List Line} (h : line.isText = true)
    (hi : rest.head?.any Line.isIndented = false) :
    cut (line :: rest) =
      .paragraph (line :: rest.takeWhile Line.isText)
          (if rest.head?.any Line.isText then (rest.dropWhile Line.isText).head?.filter Line.isIndented else none) ::
        cut (rest.dropWhile Line.isText) := by
  rw [cut]
  split <;> simp_all [Line.isText]

/-- Lines are cut by what the first of them is: behind it, behind its region, behind a run of definitions, or behind the
lines of text. -/
theorem cut_induction {P : List Line → Prop} (nil : P [])
    (blank : ∀ line rest, line.isBlank = true → P rest → P (line :: rest))
    (indented : ∀ line rest, line.isIndented = true → P (Region.read (line :: rest)).rest → P (line :: rest))
    (term : ∀ line rest, line.isText = true → rest.head?.any Line.isIndented = true →
      P (definitionRun (Region.read rest).blankFinish (Region.read rest).rest).2.2 → P (line :: rest))
    (text : ∀ line rest, line.isText = true → rest.head?.any Line.isIndented = false →
      P (rest.dropWhile Line.isText) → P (line :: rest)) (lines : List Line) : P lines := by
  fun_induction cut lines with
  | case1 => exact nil
  | case2 line rest hk ih => exact blank line rest (by simp [Line.isBlank, hk]) ih
  | case3 line rest hk region ih => exact indented line rest (by simp [Line.isIndented, hk]) ih
  | case4 line rest hk hi region run ih => exact term line rest (by simp [Line.isText, hk]) hi ih
  | case5 line rest hk hi ih => exact text line rest (by simp [Line.isText, hk]) (by simpa using hi) ih

/-- Whether the lines start with a term. -/
def startsItem (lines : List Line) : Bool := lines.head?.any Line.isText && lines.tail.head?.any Line.isIndented

theorem definitionRun_of_item {term next : Line} (h : (term.isText && next.isIndented) = true) (finish : Bool)
    (rest : List Line) :
    definitionRun finish (term :: next :: rest) =
      let region := Region.read (next :: rest)
      let run := definitionRun region.blankFinish region.rest
      ((term, region.lines) :: run.1, run.2) := by
  rw [definitionRun, if_pos h]

theorem definitionRun_of_not_startsItem {finish : Bool} {lines : List Line} (h : startsItem lines = false) :
    definitionRun finish lines = ([], finish, lines) := by
  rcases lines with _ | ⟨line, _ | ⟨next, rest⟩⟩
  · simp [definitionRun]
  · simp [definitionRun]
  · have hc : ¬ (line.isText && next.isIndented) = true := by simpa [startsItem] using h
    rw [definitionRun, if_neg hc]

/-- A run goes on behind the region of a term, and stops at lines that start with none. -/
theorem run_induction {P : Bool → List Line → Prop}
    (item : ∀ finish term next rest, (term.isText && next.isIndented) = true →
      P (Region.read (next :: rest)).blankFinish (Region.read (next :: rest)).rest → P finish (term :: next :: rest))
    (stop : ∀ finish lines, startsItem lines = false → P finish lines) (finish : Bool) (lines : List Line) :
    P finish lines := by
  fun_induction definitionRun finish lines with
  | case1 finish term next rest hc region run ih => exact item finish term next rest hc ih
  | case2 finish term next rest hc => exact stop _ _ (by simpa [startsItem] using hc)
  | case3 finish lines hlines =>
    rcases lines with _ | ⟨line, _ | ⟨next, rest⟩⟩
    · exact stop _ _ rfl
    · exact stop _ _ (by simp [startsItem])
    · exact absurd rfl (hlines line next rest)

/-- The contents of a segment, those of its regions included. -/
def contents : Segment → List (Nat × List Char)
  | paragraph lines _ => Line.contents lines
  | definitions items _ => items.flatMap fun item => Line.contents [item.1] ++ Line.contents item.2
  | quote _ lines => Line.contents lines

/-- The terms of a run with their regions, and the lines after it, hold what the lines hold. -/
private theorem contents_definitionRun (finish : Bool) {lines : List Line} (hs : ∀ line ∈ lines, line.Solid) :
    ((definitionRun finish lines).1.flatMap fun item => Line.contents [item.1] ++ Line.contents item.2) ++
      Line.contents (definitionRun finish lines).2.2 = Line.contents lines := by
  fun_induction definitionRun finish lines with
  | case1 finish term next rest _ region run ih =>
    have hnext : ∀ line ∈ next :: rest, line.Solid := fun l hl => hs l (List.mem_cons_of_mem _ hl)
    have ih := ih fun l hl => hnext l ((Region.read_rest_suffix _).subset hl)
    rw [List.flatMap_cons, List.append_assoc, List.append_assoc, ih, Region.contents_read hnext,
      ← Line.contents_append]
    rfl
  | case2 => rfl
  | case3 => rfl

theorem flatMap_contents_cut {lines : List Line} (hs : ∀ line ∈ lines, line.Solid) :
    (cut lines).flatMap contents = Line.contents lines := by
  fun_induction cut lines with
  | case1 => rfl
  | case2 line rest hk ih =>
    rw [ih fun l hl => hs l (List.mem_cons_of_mem _ hl)]
    exact (Line.contents_cons_of_isBlank (by simp [Line.isBlank, hk]) rest).symm
  | case3 line rest hk region ih =>
    rw [List.flatMap_cons, ih fun l hl => hs l ((Region.read_rest_suffix _).subset hl)]
    exact Region.contents_read hs
  | case4 line rest hk hi region run ih =>
    have hrest : ∀ l ∈ rest, l.Solid := fun l hl => hs l (List.mem_cons_of_mem _ hl)
    have hafter : ∀ l ∈ region.rest, l.Solid := fun l hl => hrest l ((Region.read_rest_suffix _).subset hl)
    have hrun := contents_definitionRun region.blankFinish hafter
    rw [List.flatMap_cons, ih fun l hl => hafter l ((definitionRun_rest_sublist _ _).subset hl), contents,
      List.flatMap_cons, List.append_assoc, hrun, List.append_assoc, Region.contents_read hrest,
      ← Line.contents_append]
    rfl
  | case5 line rest hk hi ih =>
    rw [List.flatMap_cons, ih fun l hl => hs l (List.mem_cons_of_mem _ ((List.dropWhile_suffix _).subset hl)),
      contents, ← Line.contents_append, List.cons_append, List.takeWhile_append_dropWhile]

/-- The region is what is left of consecutive lines, an indented one first, once their common indentation is off. -/
def RegionAt (lines : List Line) (first : Line) (region : List Line) : Prop :=
  first.isIndented = true ∧ ∃ more, first :: more <:+: lines ∧ region = Line.dedent (first :: more)

theorem RegionAt.mono {as bs : List Line} (h : as <:+: bs) {first : Line} {region : List Line}
    (hr : RegionAt as first region) : RegionAt bs first region := by
  obtain ⟨hf, more, hpart, heq⟩ := hr
  exact ⟨hf, more, hpart.trans h, heq⟩

private theorem regionAt_read {first : Line} (hf : first.isIndented = true) (rest : List Line) :
    RegionAt (first :: rest) first (Region.read (first :: rest)).lines := by
  obtain ⟨more, hraw⟩ := Region.raw_cons hf rest
  refine ⟨hf, more, ?_, by rw [Region.read_lines, hraw]⟩
  rw [← hraw]
  exact (Region.raw_isPrefix _).isInfix

/-- The lines of a segment follow each other in `lines`, and its regions are regions of `lines`. -/
def DrawnFrom (lines : List Line) : Segment → Prop
  | paragraph ls _ => ls <:+: lines ∧ ls ≠ [] ∧ ∀ line ∈ ls, line.isText = true
  | definitions items _ => items ≠ [] ∧
      ∀ item ∈ items, item.1 ∈ lines ∧ item.1.isText = true ∧ ∃ first, RegionAt lines first item.2
  | quote first region => RegionAt lines first region

theorem DrawnFrom.mono {as bs : List Line} (h : as <:+: bs) {s : Segment} (hs : s.DrawnFrom as) : s.DrawnFrom bs := by
  cases s with
  | paragraph ls _ => exact ⟨hs.1.trans h, hs.2⟩
  | definitions items _ =>
    refine ⟨hs.1, fun item hitem => ?_⟩
    obtain ⟨hmem, htext, first, hr⟩ := hs.2 item hitem
    exact ⟨h.subset hmem, htext, first, hr.mono h⟩
  | quote first region => exact RegionAt.mono h hs

theorem definitionRun_rest_suffix (finish : Bool) (lines : List Line) :
    (definitionRun finish lines).2.2 <:+ lines := by
  fun_induction definitionRun finish lines with
  | case1 finish term next rest _ region run ih =>
    exact ih.trans ((Region.read_rest_suffix (next :: rest)).trans (List.suffix_cons _ _))
  | case2 => exact List.suffix_rfl
  | case3 => exact List.suffix_rfl

private theorem definitionRun_drawn {finish : Bool} {lines : List Line} {item : Line × List Line}
    (h : item ∈ (definitionRun finish lines).1) :
    item.1 ∈ lines ∧ item.1.isText = true ∧ ∃ first, RegionAt lines first item.2 := by
  fun_induction definitionRun finish lines with
  | case1 finish term next rest hc region run ih =>
    rw [Bool.and_eq_true] at hc
    have hnext : next :: rest <:+ term :: next :: rest := List.suffix_cons _ _
    rcases List.mem_cons.1 h with rfl | h
    · exact ⟨by simp, hc.1, next, (regionAt_read hc.2 rest).mono hnext.isInfix⟩
    · have hrest := (Region.read_rest_suffix (next :: rest)).trans hnext
      obtain ⟨hmem, htext, first, hr⟩ := ih h
      exact ⟨hrest.subset hmem, htext, first, hr.mono hrest.isInfix⟩
  | case2 => simp at h
  | case3 => simp at h

theorem drawnFrom_of_mem_cut {lines : List Line} {s : Segment} (h : s ∈ cut lines) : s.DrawnFrom lines := by
  fun_induction cut lines with
  | case1 => simp at h
  | case2 line rest hk ih => exact (ih h).mono (List.suffix_cons _ _).isInfix
  | case3 line rest hk region ih =>
    rcases List.mem_cons.1 h with rfl | h
    · exact regionAt_read (by simp [Line.isIndented, hk]) rest
    · exact (ih h).mono (Region.read_rest_suffix _).isInfix
  | case4 line rest hk hi region run ih =>
    -- the first item is the term itself with the region after it, the others come from the run behind that region
    have hline : rest <:+ line :: rest := List.suffix_cons _ _
    have hrest : region.rest <:+ line :: rest := (Region.read_rest_suffix rest).trans hline
    rcases List.mem_cons.1 h with rfl | h
    · refine ⟨by simp, ?_⟩
      intro item hitem
      rcases List.mem_cons.1 hitem with rfl | hitem
      · rcases rest with _ | ⟨next, more⟩
        · simp at hi
        · exact ⟨by simp, by simp [Line.isText, hk], next, (regionAt_read (by simpa using hi) more).mono hline.isInfix⟩
      · obtain ⟨hmem, htext, first, hr⟩ := definitionRun_drawn hitem
        exact ⟨hrest.subset hmem, htext, first, hr.mono hrest.isInfix⟩
    · exact (ih h).mono ((definitionRun_rest_suffix _ _).trans hrest).isInfix
  | case5 line rest hk hi ih =>
    rcases List.mem_cons.1 h with rfl | h
    · refine ⟨((List.prefix_cons_inj line).2 (List.takeWhile_prefix _)).isInfix, by simp, ?_⟩
      intro l hl
      rcases List.mem_cons.1 hl with rfl | hl
      · simp [Line.isText, hk]
      · exact List.all_eq_true.1 List.all_takeWhile l hl
    · exact (ih h).mono ((List.dropWhile_suffix _).trans (List.suffix_cons _ _)).isInfix

/-- What holds of lines once it holds of the regions in their segments holds of all lines. -/
theorem region_induction {P : List Line → Prop}
    (h : ∀ lines, (∀ s ∈ cut lines, ∀ region ∈ s.regions, P region) → P lines) (lines : List Line) : P lines := by
  induction hw : weight lines using Nat.strongRecOn generalizing lines with
  | ind n ih =>
    apply h
    intro s hs region hr
    exact ih (weight region) (hw ▸ weight_region_lt hs hr) region rfl

end Segment

end LispDoc
