import LispDoc.Proofs.Docstring.Lines

/-!
# Indentation and regions

A region is told by indentation alone. From the line on which it starts, it takes the lines that are not blank up to the
next line that is indented no more than the lines around it (`Line.extent`), and taking a common indentation off its
lines shifts every indentation inside it by the same amount.

* The regions in the segments of a sequence of lines start where they should, right after their term or at the first
  line of the quote (`Segment.startsIn_of_mem_cut`).
* A region holds the lines of its extent (`Segment.RegionFrom.numbers`).
* Extents inside a region are extents in the lines around it, at a deeper indentation
  (`Segment.RegionFrom.shift`).
-/

namespace LispDoc

namespace Line

/-- The indentation of the line with a number, unless it is blank. -/
def indentAt? (lines : List Line) (n : Nat) : Option Nat :=
  (lines.find? fun line => !line.isBlank && line.number == n).map indent

/-- The numbers of the lines from line `n` on that are not blank, up to the next one that is indented by `b` at most. -/
def extent (lines : List Line) (b n : Nat) : List Nat :=
  ((lines.filter fun line => !line.isBlank && n ≤ line.number).takeWhile (b < ·.indent)).map number

/-- The numbers of the lines that are not blank. -/
def numbers (lines : List Line) : List Nat := (lines.filter (!·.isBlank)).map number

theorem numbers_eq (lines : List Line) : numbers lines = (contents lines).map (·.1) := by
  simp [numbers, contents, Function.comp_def]

theorem indent_of_isText {line : Line} (h : line.isText = true) : line.indent = 0 := by
  obtain ⟨c, cs, ht, hc⟩ := (Segment.isText_iff line).1 h
  simp [indent, ht, hc]

/-! ### Numbers -/

/-- Lines that follow each other have increasing numbers. -/
theorem Run.ordered {text : List Char} {lines : List Line} (h : Run text lines) :
    lines.Pairwise fun a b => a.number < b.number := by
  have : IsTrans Line fun a b => a.number < b.number := ⟨fun _ _ _ => Nat.lt_trans⟩
  refine List.isChain_iff_pairwise.1 (h.follow.imp ?_)
  intro a b hab
  omega

theorem indentAt?_of_mem {lines : List Line} (h : lines.Pairwise fun a b => a.number < b.number) {line : Line}
    (hl : line ∈ lines) (hb : line.isBlank = false) : indentAt? lines line.number = some line.indent := by
  induction lines with
  | nil => simp at hl
  | cons first lines ih =>
    rw [List.pairwise_cons] at h
    rcases List.mem_cons.1 hl with rfl | hl
    · simp [indentAt?, hb]
    · have hne : first.number ≠ line.number := Nat.ne_of_lt (h.1 line hl)
      have hfind : indentAt? (first :: lines) line.number = indentAt? lines line.number := by
        simp [indentAt?, hne]
      rw [hfind, ih h.2 hl]

private theorem exists_mem_of_indentAt? {lines : List Line} {n k : Nat} (h : indentAt? lines n = some k) :
    ∃ line ∈ lines, line.isBlank = false ∧ line.number = n ∧ line.indent = k := by
  obtain ⟨line, hfind, rfl⟩ := Option.map_eq_some_iff.1 h
  have hfound := List.find?_some hfind
  simp only [Bool.and_eq_true, Bool.not_eq_true', beq_iff_eq] at hfound
  exact ⟨line, List.mem_of_find?_eq_some hfind, hfound.1, hfound.2, rfl⟩

theorem exists_mem_of_mem_extent {lines : List Line} {b n m : Nat} (h : m ∈ extent lines b n) :
    ∃ line ∈ lines, line.number = m ∧ line.isBlank = false ∧ n ≤ m ∧ b < line.indent := by
  obtain ⟨line, hl, rfl⟩ := List.mem_map.1 h
  have hdeep : b < line.indent := by simpa using List.all_eq_true.1 List.all_takeWhile line hl
  have hmem := List.mem_filter.1 ((List.takeWhile_sublist _).subset hl)
  simp only [Bool.and_eq_true, Bool.not_eq_true', decide_eq_true_eq] at hmem
  exact ⟨line, hmem.1, rfl, hmem.2.1, hmem.2.2, hdeep⟩

theorem mem_numbers_of_mem_extent {lines : List Line} {b n m : Nat} (h : m ∈ extent lines b n) :
    m ∈ numbers lines := by
  obtain ⟨line, hl, rfl, hb, -⟩ := exists_mem_of_mem_extent h
  exact List.mem_map.2 ⟨line, List.mem_filter.2 ⟨hl, by simp [hb]⟩, rfl⟩

theorem extent_cons (line : Line) (lines : List Line) (b n : Nat) :
    extent (line :: lines) b n =
      if !line.isBlank && n ≤ line.number then (if b < line.indent then line.number :: extent lines b n else [])
      else extent lines b n := by
  rw [extent, List.filter_cons]
  split
  · by_cases hb : b < line.indent
    · rw [List.takeWhile_cons_of_pos (by simpa using hb), if_pos hb]
      rfl
    · rw [List.takeWhile_cons_of_neg (by simpa using hb), if_neg hb]
      rfl
  · rfl

/-- What follows a part does not matter to an extent that starts in the part, if the first line after it that is not
blank is indented by `b` at most. -/
private theorem extent_of_part {before part after : List Line} {b n : Nat}
    (hordered : (before ++ part ++ after).Pairwise fun a b => a.number < b.number)
    (hn : ∃ line ∈ part, line.number = n) (hafter : ∀ line ∈ after.find? (!·.isBlank), line.indent ≤ b) :
    extent (before ++ part ++ after) b n = extent part b n := by
  obtain ⟨start, hstart, rfl⟩ := hn
  rw [List.pairwise_append, List.pairwise_append] at hordered
  obtain ⟨⟨-, -, hbefore⟩, -, hpart⟩ := hordered
  -- nothing in front of the part is reached, and behind it the walk stops at once
  have hnone : (before.filter fun line => !line.isBlank && start.number ≤ line.number) = [] := by
    rw [List.filter_eq_nil_iff]
    intro line hl
    have := hbefore line hl start hstart
    simp only [Bool.and_eq_true, decide_eq_true_eq]
    omega
  have hall : (after.filter fun line => !line.isBlank && start.number ≤ line.number) = after.filter (!·.isBlank) := by
    refine List.filter_congr fun line hl => ?_
    have := hpart start (by simp [hstart]) line hl
    simp [Nat.le_of_lt this]
  have hstop : (after.filter (!·.isBlank)).takeWhile (b < ·.indent) = [] := by
    rw [← List.head?_filter] at hafter
    cases hf : after.filter (!·.isBlank) with
    | nil => rfl
    | cons line rest =>
      have := hafter line (by simp [hf])
      simp only [List.takeWhile_cons, decide_eq_true_eq]
      rw [if_neg (by omega)]
  rw [extent, extent, List.filter_append, List.filter_append, hnone, hall, List.nil_append, List.takeWhile_append,
    hstop, List.append_nil]
  split
  · rename_i hlength
    rw [(List.takeWhile_prefix _).eq_of_length hlength]
  · rfl

/-- A part of which no line is indented by `b` or less is its own extent from its first line on. -/
private theorem extent_of_deep {first : Line} {more : List Line} {b : Nat}
    (hordered : (first :: more).Pairwise fun a b => a.number < b.number)
    (hdeep : ∀ line ∈ first :: more, line.isBlank = false → b < line.indent) :
    extent (first :: more) b first.number = numbers (first :: more) := by
  have hfilter : ((first :: more).filter fun line => !line.isBlank && first.number ≤ line.number) =
      (first :: more).filter (!·.isBlank) := by
    refine List.filter_congr fun line hl => ?_
    have hle : first.number ≤ line.number := by
      rcases List.mem_cons.1 hl with rfl | hl
      · exact Nat.le_refl _
      · exact Nat.le_of_lt ((List.pairwise_cons.1 hordered).1 line hl)
    simp [hle]
  have hall : ((first :: more).filter (!·.isBlank)).takeWhile (b < ·.indent) = (first :: more).filter (!·.isBlank) := by
    rw [List.takeWhile_eq_self_iff]
    intro line hl
    have := List.mem_filter.1 hl
    exact decide_eq_true (hdeep line this.1 (by simpa using this.2))
  rw [extent, hfilter, hall, numbers]

/-! ### Taking indentation off -/

private theorem indent_add_length_body (line : Line) : line.indent + line.body.length = line.text.length := by
  rw [indent, body, ← List.length_append, List.takeWhile_append_dropWhile]

private theorem indent_drop {n : Nat} {line : Line} (h : n ≤ line.indent) : (line.drop n).indent + n = line.indent := by
  have hafter := indent_add_length_body (line.drop n)
  have hbefore := indent_add_length_body line
  rw [body_drop h] at hafter
  have hlength : (line.drop n).text.length = line.text.length - n := by simp [Line.drop]
  omega

/-- Taking an indentation off that all lines have shifts the extents. -/
private theorem extent_map_drop {lines : List Line} {c : Nat} (hs : ∀ line ∈ lines, line.Solid)
    (h : ∀ line ∈ lines, line.isBlank = false → c ≤ line.indent) (b n : Nat) :
    extent (lines.map (Line.drop c)) b n = extent lines (b + c) n := by
  induction lines with
  | nil => rfl
  | cons line lines ih =>
    have ih := ih (fun l hl => hs l (by simp [hl])) (fun l hl => h l (by simp [hl]))
    have hblank := isBlank_drop (hs line (by simp)) (h line (by simp))
    rw [List.map_cons, extent_cons, extent_cons, hblank, drop_number, ih]
    cases hb : line.isBlank with
    | true => simp
    | false =>
      have hindent := indent_drop (h line (by simp) hb)
      have hiff : b < (line.drop c).indent ↔ b + c < line.indent := by omega
      simp only [hiff]

/-- Taking an indentation off that all lines have shifts the indentations. -/
private theorem indentAt?_of_map_drop {lines : List Line} {c n k : Nat}
    (hordered : lines.Pairwise fun a b => a.number < b.number) (hs : ∀ line ∈ lines, line.Solid)
    (h : ∀ line ∈ lines, line.isBlank = false → c ≤ line.indent)
    (hk : indentAt? (lines.map (Line.drop c)) n = some k) : indentAt? lines n = some (k + c) := by
  obtain ⟨dropped, hdropped, hb, rfl, rfl⟩ := exists_mem_of_indentAt? hk
  obtain ⟨line, hl, rfl⟩ := List.mem_map.1 hdropped
  rw [isBlank_drop (hs line hl) (h line hl)] at hb
  rw [drop_number, indentAt?_of_mem hordered hl hb, indent_drop (h line hl hb)]

/-- The common indentation is that of some line. -/
theorem exists_indent_eq_commonIndent {lines : List Line} (hb : ∃ line ∈ lines, line.isBlank = false) :
    ∃ line ∈ lines, line.isBlank = false ∧ line.indent = commonIndent lines := by
  obtain ⟨some_, hmem, hsome⟩ := hb
  unfold commonIndent
  cases hm : ((lines.filter (!·.isBlank)).map indent).min? with
  | none =>
    rw [List.min?_eq_none_iff, List.map_eq_nil_iff, List.filter_eq_nil_iff] at hm
    simpa [hsome] using hm some_ hmem
  | some m =>
    obtain ⟨line, hl, rfl⟩ := List.mem_map.1 (List.min?_mem hm)
    obtain ⟨hl, hb⟩ := List.mem_filter.1 hl
    exact ⟨line, hl, by simpa using hb, rfl⟩

/-- Some line keeps no indentation when the common one is taken off. -/
theorem exists_isText_dedent {lines : List Line} (hs : ∀ line ∈ lines, line.Solid)
    (hb : ∃ line ∈ lines, line.isBlank = false) : ∃ line ∈ dedent lines, line.isText = true := by
  obtain ⟨line, hl, hblank, hindent⟩ := exists_indent_eq_commonIndent hb
  refine ⟨line.drop (commonIndent lines), List.mem_map.2 ⟨line, hl, rfl⟩, ?_⟩
  have hle : commonIndent lines ≤ line.indent := Nat.le_of_eq hindent.symm
  have hzero : (line.drop (commonIndent lines)).indent = 0 := by
    have := indent_drop hle
    omega
  have hnonblank : (line.drop (commonIndent lines)).isBlank = false :=
    (isBlank_drop (hs line hl) fun _ => hle).trans hblank
  cases ht : (line.drop (commonIndent lines)).isText with
  | true => rfl
  | false =>
    have := Segment.indent_pos hnonblank ht
    omega

end Line

/-! ### Where regions start -/

/-- A line of text comes after a region, if any does. -/
theorem Region.isText_of_head?_rest {lines : List Line} {line : Line} (h : line ∈ (read lines).rest.head?) :
    line.isText = true := by
  have hstop := List.head?_dropWhile_not (fun line : Line => !line.isText) lines
  rw [Option.mem_def] at h
  rw [read] at h
  simpa [h] using hstop

/-- A region ends in front of blank lines and a line of text, or at the end. -/
theorem Region.raw_append (lines : List Line) :
    ∃ after, lines = raw lines ++ after ∧ ∀ line ∈ after.find? (!·.isBlank), line.isText = true := by
  refine ⟨((lines.takeWhile (!·.isText)).reverse.takeWhile Line.isBlank).reverse ++ (read lines).rest, ?_, ?_⟩
  · rw [raw, ← List.append_assoc, dropTrailingBlank_append]
    exact List.takeWhile_append_dropWhile.symm
  · intro line hl
    have hblank : (((lines.takeWhile (!·.isText)).reverse.takeWhile Line.isBlank).reverse).find? (!·.isBlank) = none := by
      rw [List.find?_eq_none]
      intro l hl
      simpa using List.all_eq_true.1 List.all_takeWhile l (List.mem_reverse.1 hl)
    rw [List.find?_append, hblank, Option.none_or] at hl
    cases hd : (read lines).rest with
    | nil => simp [hd] at hl
    | cons l rest =>
      have hhead : l ∈ (read lines).rest.head? := by simp [hd]
      have htext : l.isText = true := isText_of_head?_rest hhead
      rw [hd, List.find?_cons_of_pos (by simp [Line.isBlank_of_isText htext]), Option.mem_some_iff] at hl
      rw [← hl, htext]

namespace Segment

/-- A region that starts on line `n`: consecutive lines without a line of text, an indented one first, up to the next
line of text or the end, less blank lines at its end and the common indentation. -/
def RegionFrom (lines : List Line) (n : Nat) (region : List Line) : Prop :=
  ∃ before first more after, lines = before ++ (first :: more) ++ after ∧ first.number = n ∧
    first.isIndented = true ∧ (∀ line ∈ first :: more, line.isText = false) ∧
    (∀ line ∈ after.find? (!·.isBlank), line.isText = true) ∧ region = Line.dedent (first :: more)

theorem RegionFrom.mono {as bs : List Line} (h : as <:+ bs) {n : Nat} {region : List Line}
    (hr : RegionFrom as n region) : RegionFrom bs n region := by
  obtain ⟨front, rfl⟩ := h
  obtain ⟨before, first, more, after, rfl, hrest⟩ := hr
  exact ⟨front ++ before, first, more, after, by simp, hrest⟩

private theorem regionFrom_read {first : Line} (hf : first.isIndented = true) (rest : List Line) :
    RegionFrom (first :: rest) first.number (Region.read (first :: rest)).lines := by
  obtain ⟨more, hraw⟩ := Region.raw_cons hf rest
  obtain ⟨after, hsplit, hafter⟩ := Region.raw_append (first :: rest)
  refine ⟨[], first, more, after, by rw [← hraw, List.nil_append, ← hsplit], rfl, hf, ?_, hafter, ?_⟩
  · intro line hl
    rw [← hraw] at hl
    have := List.all_eq_true.1 List.all_takeWhile line ((Region.dropTrailingBlank_isPrefix _).subset hl)
    simpa using this
  · rw [Region.read_lines, hraw]

/-- The regions of a segment start right after their term or with the first line of the quote. -/
def StartsIn (lines : List Line) : Segment → Prop
  | paragraph .. => True
  | definitions items _ => ∀ item ∈ items, RegionFrom lines (item.1.number + 1) item.2
  | quote first region => RegionFrom lines first.number region

theorem StartsIn.mono {as bs : List Line} (h : as <:+ bs) {s : Segment} (hs : s.StartsIn as) : s.StartsIn bs := by
  cases s with
  | paragraph _ _ => trivial
  | definitions items _ => exact fun item hitem => (hs item hitem).mono h
  | quote first region => exact RegionFrom.mono h hs

/-- The region of a term, which starts on the next line. -/
private theorem regionFrom_of_term {term next : Line} {rest : List Line}
    (hfollow : (term :: next :: rest).IsChain fun a b => b.number = a.number + 1) (hn : next.isIndented = true) :
    RegionFrom (term :: next :: rest) (term.number + 1) (Region.read (next :: rest)).lines := by
  rw [← hfollow.rel]
  exact (regionFrom_read hn rest).mono (List.suffix_cons _ _)

private theorem definitionRun_startsIn {finish : Bool} {lines : List Line}
    (hfollow : lines.IsChain fun a b => b.number = a.number + 1) {item : Line × List Line}
    (h : item ∈ (definitionRun finish lines).1) : RegionFrom lines (item.1.number + 1) item.2 := by
  fun_induction definitionRun finish lines with
  | case1 finish term next rest hc region run ih =>
    rw [Bool.and_eq_true] at hc
    rcases List.mem_cons.1 h with rfl | h
    · exact regionFrom_of_term hfollow hc.2
    · have hrest := (Region.read_rest_suffix (next :: rest)).trans (List.suffix_cons term _)
      exact (ih (hfollow.suffix hrest) h).mono hrest
  | case2 => simp at h
  | case3 => simp at h

theorem startsIn_of_mem_cut {lines : List Line} (hfollow : lines.IsChain fun a b => b.number = a.number + 1)
    {s : Segment} (h : s ∈ cut lines) : s.StartsIn lines := by
  fun_induction cut lines with
  | case1 => simp at h
  | case2 line rest hk ih => exact (ih hfollow.tail h).mono (List.suffix_cons _ _)
  | case3 line rest hk region ih =>
    rcases List.mem_cons.1 h with rfl | h
    · exact regionFrom_read (by simp [Line.isIndented, hk]) rest
    · have hrest := Region.read_rest_suffix (line :: rest)
      exact (ih (hfollow.suffix hrest) h).mono hrest
  | case4 line rest hk hi region run ih =>
    have hrest : region.rest <:+ line :: rest := (Region.read_rest_suffix rest).trans (List.suffix_cons _ _)
    rcases List.mem_cons.1 h with rfl | h
    · intro item hitem
      rcases List.mem_cons.1 hitem with rfl | hitem
      · rcases rest with _ | ⟨next, more⟩
        · simp at hi
        · exact regionFrom_of_term hfollow (by simpa using hi)
      · exact (definitionRun_startsIn (hfollow.suffix hrest) hitem).mono hrest
    · have hafter := (definitionRun_rest_suffix region.blankFinish region.rest).trans hrest
      exact (ih (hfollow.suffix hafter) h).mono hafter
  | case5 line rest hk hi ih =>
    rcases List.mem_cons.1 h with rfl | h
    · trivial
    · have hrest := (List.dropWhile_suffix Line.isText).trans (List.suffix_cons line rest)
      exact (ih (hfollow.suffix hrest) h).mono hrest

/-! ### Regions and extents -/

section

variable {text : List Char} {lines region : List Line} {n : Nat}

theorem RegionFrom.run (hr : RegionFrom lines n region) (hrun : Line.Run text lines) : Line.Run text region := by
  obtain ⟨before, first, more, after, rfl, -, -, -, -, rfl⟩ := hr
  exact (hrun.part ⟨before, after, rfl⟩).dedent

theorem RegionFrom.exists_isText (hr : RegionFrom lines n region) (hrun : Line.Run text lines) :
    ∃ line ∈ region, line.isText = true := by
  obtain ⟨before, first, more, after, rfl, -, hfirst, -, -, rfl⟩ := hr
  have hpart : first :: more <:+: before ++ (first :: more) ++ after := ⟨before, after, rfl⟩
  exact Line.exists_isText_dedent (hrun.part hpart).solid ⟨first, by simp, Line.isBlank_of_isIndented hfirst⟩

private theorem numbers_dedent {lines : List Line} (hs : ∀ line ∈ lines, line.Solid) :
    Line.numbers (Line.dedent lines) = Line.numbers lines := by
  rw [Line.numbers_eq, Line.contents_dedent hs, ← Line.numbers_eq]

/-- A region starts on its first line. -/
theorem RegionFrom.start_mem (hr : RegionFrom lines n region) (hrun : Line.Run text lines) :
    n ∈ Line.numbers region := by
  obtain ⟨before, first, more, after, rfl, rfl, hfirst, -, -, rfl⟩ := hr
  rw [numbers_dedent (hrun.part ⟨before, after, rfl⟩).solid]
  exact List.mem_map.2 ⟨first, List.mem_filter.2 ⟨by simp, by simp [Line.isBlank_of_isIndented hfirst]⟩, rfl⟩

/-- A region holds the lines of its extent. -/
theorem RegionFrom.numbers (hr : RegionFrom lines n region) (hrun : Line.Run text lines) :
    Line.numbers region = Line.extent lines 0 n := by
  obtain ⟨before, first, more, after, rfl, rfl, -, hindented, hafter, rfl⟩ := hr
  have hpart : Line.Run text (first :: more) := hrun.part ⟨before, after, rfl⟩
  rw [numbers_dedent hpart.solid, Line.extent_of_part hrun.ordered ⟨first, by simp, rfl⟩, Line.extent_of_deep hpart.ordered]
  · exact fun line hl hb => indent_pos hb (hindented line hl)
  · exact fun line hl => (Line.indent_of_isText (hafter line hl)).le

/-- Inside a region every extent is one of the lines around it and every indentation is less, both by what the lines of
the region have in common. -/
theorem RegionFrom.shift (hr : RegionFrom lines n region) (hrun : Line.Run text lines) :
    ∃ c, (∀ b, ∀ m ∈ Line.numbers region, Line.extent region b m = Line.extent lines (b + c) m) ∧
      ∀ m k, Line.indentAt? region m = some k → Line.indentAt? lines m = some (k + c) := by
  obtain ⟨before, first, more, after, rfl, rfl, -, -, hafter, rfl⟩ := hr
  have hpart : Line.Run text (first :: more) := hrun.part ⟨before, after, rfl⟩
  have hcommon : ∀ line ∈ first :: more, line.isBlank = false → Line.commonIndent (first :: more) ≤ line.indent :=
    fun line hl hb => Line.commonIndent_le hl hb
  refine ⟨Line.commonIndent (first :: more), ?_, ?_⟩
  · intro b m hm
    rw [numbers_dedent hpart.solid] at hm
    obtain ⟨line, hl, rfl⟩ := List.mem_map.1 hm
    have hl := (List.mem_filter.1 hl).1
    rw [Line.dedent, Line.extent_map_drop hpart.solid hcommon, Line.extent_of_part hrun.ordered ⟨line, hl, rfl⟩]
    intro line hl
    rw [Line.indent_of_isText (hafter line hl)]
    exact Nat.zero_le _
  · intro m k hk
    have hinner := Line.indentAt?_of_map_drop hpart.ordered hpart.solid hcommon hk
    obtain ⟨line, hl, hb, rfl, hindent⟩ := Line.exists_mem_of_indentAt? hinner
    have hmem : line ∈ before ++ (first :: more) ++ after := List.mem_append_left _ (List.mem_append_right _ hl)
    rw [Line.indentAt?_of_mem hrun.ordered hmem hb, hindent]

end

end Segment

end LispDoc
