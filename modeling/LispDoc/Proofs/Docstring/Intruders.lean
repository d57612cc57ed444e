import LispDoc.Proofs.Docstring.Indentation

/-!
# Lines out of place

A paragraph of several lines should not run into an indented line, nor a definition list into a line of text. Cutting
lines into segments notes such a line beside the segment in front of it, its intruder, as soon as that segment ends.
Looking at the segments afterwards tells the same: the intruder is the first line of the next segment, if no blank line
comes between and the two are of the kinds that should be kept apart (`Segment.intruder_eq`).

What is kept along a run of definitions is that its flag tells whether the line after the run comes directly after the
last line that is not blank (`Segment.EndsAt`).
-/

namespace LispDoc

namespace Segment

/-! ### Segments that run into each other -/

/-- The line on which a segment starts. -/
def first? : Segment → Option Line
  | paragraph lines _ => lines.head?
  | definitions items _ => items.head?.map (·.1)
  | quote first _ => some first

/-- The line noted beside a segment. -/
def intruder : Segment → Option Line
  | paragraph _ intruder => intruder
  | definitions _ intruder => intruder
  | quote .. => none

/-- Whether a line comes directly after the last of some contents. -/
def follows (before : List (Nat × List Char)) (line : Line) : Bool := before.getLast?.any (·.1 + 1 == line.number)

/-- Whether the second segment should be kept apart from the first by a blank line. -/
def keepsApart : Segment → Segment → Bool
  | paragraph lines _, quote .. => 2 ≤ lines.length
  | definitions .., _ => true
  | _, _ => false

/-- Whether the second segment should be kept apart from the first and is not. -/
def runsInto (s next : Segment) : Bool := s.keepsApart next && next.first?.any (follows s.contents)

theorem follows_append {before after : List (Nat × List Char)} (h : after ≠ []) :
    follows (before ++ after) = follows after := by
  funext line
  rw [follows, follows, List.getLast?_append_of_ne_nil _ h]

/-- Segments start with the first line that is not blank. -/
theorem first?_head?_cut (lines : List Line) : (cut lines).head?.bind first? = lines.find? (!·.isBlank) := by
  fun_induction cut lines with
  | case1 => rfl
  | case2 line rest hk ih => rw [ih, List.find?_cons_of_neg (by simp [Line.isBlank, hk])]
  | case3 line rest hk region ih => rw [List.find?_cons_of_pos (by simp [Line.isBlank, hk])]; rfl
  | case4 line rest hk hi region run ih => rw [List.find?_cons_of_pos (by simp [Line.isBlank, hk])]; rfl
  | case5 line rest hk hi ih => rw [List.find?_cons_of_pos (by simp [Line.isBlank, hk])]; rfl

/-! ### The end of a definition list -/

/-- What follows some contents starts with a line of text, and the flag tells whether a blank line comes first. -/
structure EndsAt (before : List (Nat × List Char)) (finish : Bool) (rest : List Line) : Prop where
  text : ∀ line ∈ rest.head?, line.isText = true
  finish_eq : finish = !rest.head?.any (follows before)

section

variable {text : List Char}

theorem mem_contents {lines : List Line} {entry : Nat × List Char} (h : entry ∈ Line.contents lines) :
    ∃ line ∈ lines, line.isBlank = false ∧ entry = (line.number, line.body) := by
  obtain ⟨line, hl, rfl⟩ := List.mem_map.1 h
  have hl := List.mem_filter.1 hl
  exact ⟨line, hl.1, by simpa using hl.2, rfl⟩

/-- The line after some lines follows what they hold, unless the last of them is blank. -/
private theorem follows_contents {init : List Line} {last next : Line}
    (hrun : Line.Run text (init ++ [last, next])) :
    follows (Line.contents (init ++ [last])) next = !last.isBlank := by
  have hnext : next.number = last.number + 1 := by
    have hpart : [last, next] <:+: init ++ [last, next] := (List.suffix_append _ _).isInfix
    exact (hrun.part hpart).follow.rel
  cases hb : last.isBlank with
  | false =>
    rw [Line.contents_append, Line.contents_cons hb, Line.contents_nil]
    simp [follows, hnext]
  | true =>
    rw [Line.contents_append, Line.contents_cons_of_isBlank hb, Line.contents_nil, List.append_nil]
    cases he : (Line.contents init).getLast? with
    | none => simp [follows, he]
    | some entry =>
      obtain ⟨line, hl, -, rfl⟩ := mem_contents (List.mem_of_getLast? he)
      have hlt : line.number < last.number := (List.pairwise_append.1 hrun.ordered).2.2 line hl last (by simp)
      simp only [follows, he, Option.any_some, Bool.not_true, beq_eq_false_iff_ne]
      omega

/-- A region ends with its last line that is not blank, whatever comes before it. -/
private theorem endsAt_read (before : List (Nat × List Char)) {first : Line} {rest : List Line}
    (hfirst : first.isIndented = true) (hrun : Line.Run text (first :: rest)) :
    EndsAt (before ++ Line.contents (Region.read (first :: rest)).lines) (Region.read (first :: rest)).blankFinish
      (Region.read (first :: rest)).rest := by
  refine ⟨fun line => Region.isText_of_head?_rest, ?_⟩
  have htake : (first :: rest).takeWhile (!·.isText) = first :: rest.takeWhile (!·.isText) := by
    simp [Line.isText_of_isIndented hfirst]
  have hcontents : Line.contents (Region.read (first :: rest)).lines =
      Line.contents ((first :: rest).takeWhile (!·.isText)) := by
    rw [Region.read_lines, Line.contents_dedent, Region.raw, Region.contents_dropTrailingBlank]
    exact fun line hl => hrun.solid line ((Region.raw_isPrefix _).subset hl)
  have hne : Line.contents ((first :: rest).takeWhile (!·.isText)) ≠ [] := by
    rw [htake, Line.contents_cons (Line.isBlank_of_isIndented hfirst)]
    exact List.cons_ne_nil _ _
  rw [hcontents, follows_append hne]
  -- whether there is a gap is told by the last line read, before blank lines are taken off
  obtain ⟨init, last, hinit⟩ : ∃ init last, (first :: rest).takeWhile (!·.isText) = init ++ [last] := by
    rw [htake]
    exact ⟨_, _, (List.dropLast_append_getLast (List.cons_ne_nil _ _)).symm⟩
  cases hrest : (first :: rest).dropWhile (!·.isText) with
  | nil => simp [Region.read, hrest]
  | cons next more =>
    have hlines : first :: rest = init ++ [last, next] ++ more := by
      rw [← List.takeWhile_append_dropWhile (p := fun line : Line => !line.isText) (l := first :: rest), hinit, hrest]
      simp
    have hpart : Line.Run text (init ++ [last, next]) := by
      rw [hlines] at hrun
      exact hrun.part (List.prefix_append _ _).isInfix
    have hfinish : (Region.read (first :: rest)).blankFinish = last.isBlank := by simp [Region.read, hinit, hrest]
    have hnext : (Region.read (first :: rest)).rest.head? = some next := by simp [Region.read, hrest]
    rw [hfinish, hnext, Option.any_some, hinit, follows_contents hpart, Bool.not_not]

/-- The same of the terms at the front and their regions, step by step. -/
private theorem endsAt_definitionRun {finish : Bool} {lines : List Line} (hrun : Line.Run text lines) :
    ∀ before, EndsAt before finish lines →
      EndsAt
        (before ++ (definitionRun finish lines).1.flatMap fun item => Line.contents [item.1] ++ Line.contents item.2)
        (definitionRun finish lines).2.1 (definitionRun finish lines).2.2 := by
  fun_induction definitionRun finish lines with
  | case1 finish term next rest hc region run ih =>
    intro before _
    rw [Bool.and_eq_true] at hc
    have hnext : Line.Run text (next :: rest) := hrun.part (List.suffix_cons _ _).isInfix
    have hrest : Line.Run text region.rest := hnext.part (Region.read_rest_suffix _).isInfix
    rw [List.flatMap_cons, ← List.append_assoc, ← List.append_assoc]
    exact ih hrest _ (endsAt_read (before ++ Line.contents [term]) hc.2 hnext)
  | case2 =>
    intro before h
    simpa using h
  | case3 =>
    intro before h
    simpa using h

/-! ### Intruders -/

/-- What follows a definition list directly is where the next segment starts. -/
private theorem intruder_of_endsAt {before : List (Nat × List Char)} {finish : Bool} {rest : List Line}
    (h : EndsAt before finish rest) :
    (if finish then none else rest.head?) =
      (cut rest).head?.bind fun next => if next.first?.any (follows before) then next.first? else none := by
  have hfirst := first?_head?_cut rest
  cases rest with
  | nil => simp
  | cons line rest =>
    have htext : line.isText = true := h.text line (by simp)
    rw [List.find?_cons_of_pos (by simp [Line.isBlank_of_isText htext])] at hfirst
    obtain ⟨next, hnext, hline⟩ := Option.bind_eq_some_iff.1 hfirst
    rw [h.finish_eq, hnext, Option.bind_some, hline]
    cases hf : follows before line <;> simp [hf]

private theorem number_eq_of_follows {before : List (Nat × List Char)} {a b : Line} (ha : follows before a = true)
    (hb : follows before b = true) : a.number = b.number := by
  rw [follows, Option.any_eq_true] at ha hb
  obtain ⟨entry, he, ha⟩ := ha
  obtain ⟨entry', he', hb⟩ := hb
  obtain rfl : entry = entry' := Option.mem_unique he he'
  exact (eq_of_beq ha).symm.trans (eq_of_beq hb)

/-- The line after the lines of text at the front follows what they hold. -/
private theorem follows_texts {line next : Line} {rest more : List Line} (hrun : Line.Run text (line :: rest))
    (hline : line.isText = true) (hrest : rest.dropWhile Line.isText = next :: more) :
    follows (Line.contents (line :: rest.takeWhile Line.isText)) next = true := by
  obtain ⟨init, last, hinit⟩ : ∃ init last, line :: rest.takeWhile Line.isText = init ++ [last] :=
    ⟨_, _, (List.dropLast_append_getLast (List.cons_ne_nil _ _)).symm⟩
  have hlast : last.isText = true := by
    have hmem : last ∈ line :: rest.takeWhile Line.isText := by simp [hinit]
    rcases List.mem_cons.1 hmem with rfl | hmem
    · exact hline
    · exact List.all_eq_true.1 List.all_takeWhile last hmem
  have hlines : line :: rest = init ++ [last, next] ++ more := by
    rw [← List.takeWhile_append_dropWhile (p := Line.isText) (l := rest), hrest, ← List.cons_append, hinit]
    simp
  rw [hlines] at hrun
  rw [hinit, follows_contents (hrun.part (List.prefix_append _ _).isInfix), Line.isBlank_of_isText hlast]
  rfl

/-- A line that is indented after lines of text stands in front of a quote. If the next line is blank, then what starts
further down is not reached directly. -/
private theorem intruder_of_paragraph {line : Line} {rest : List Line} (hrun : Line.Run text (line :: rest))
    (hline : line.isText = true) (hi : ¬ rest.head?.any Line.isIndented = true) (i : Option Line) :
    (if rest.head?.any Line.isText then (rest.dropWhile Line.isText).head?.filter Line.isIndented else none) =
      (cut (rest.dropWhile Line.isText)).head?.bind fun next =>
        if (paragraph (line :: rest.takeWhile Line.isText) i).runsInto next then next.first? else none := by
  cases hrest : rest.dropWhile Line.isText with
  | nil => simp
  | cons next more =>
    have hfollows := follows_texts hrun hline hrest
    have hstop : next.isText = false := by
      have := List.head?_dropWhile_not Line.isText rest
      rw [hrest] at this
      simpa using this
    cases hk : next.kind with
    | text => simp [Line.isText, hk] at hstop
    | indented =>
      have hindented : next.isIndented = true := by simp [Line.isIndented, hk]
      -- with the first line alone in front of it, the indented line would have made that a term
      obtain ⟨second, texts, rfl, hsecond⟩ : ∃ second texts, rest = second :: texts ∧ second.isText = true := by
        rcases rest with _ | ⟨second, texts⟩
        · simp at hrest
        · cases hs : second.isText with
          | true => exact ⟨second, texts, rfl, hs⟩
          | false =>
            rw [List.dropWhile_cons_of_neg (by simp [hs]), List.cons.injEq] at hrest
            exact absurd hi (by simp [hrest.1, hindented])
      have hcut : (cut (next :: more)).head? = some (.quote next (Region.read (next :: more)).lines) := by
        rw [cut_of_isIndented hindented]
        rfl
      have hinto : (paragraph (line :: (second :: texts).takeWhile Line.isText) i).runsInto
          (.quote next (Region.read (next :: more)).lines) = true := by
        rw [runsInto, first?, Option.any_some, contents, hfollows, keepsApart, List.takeWhile_cons_of_pos hsecond]
        simp
      rw [hcut, Option.bind_some, if_pos hinto, List.head?_cons, List.head?_cons, Option.any_some, if_pos hsecond,
        Option.filter_some_pos hindented]
      rfl
    | blank =>
      have hblank : next.isBlank = true := by simp [Line.isBlank, hk]
      -- a quote further down would have to have the number of the blank line
      have hnone : ((cut (next :: more)).head?.bind fun s =>
          if (paragraph (line :: rest.takeWhile Line.isText) i).runsInto s then s.first? else none) = none := by
        rw [Option.bind_eq_none_iff]
        intro s hs
        rw [if_neg]
        intro hinto
        cases s with
        | paragraph => simp [runsInto, keepsApart] at hinto
        | definitions => simp [runsInto, keepsApart] at hinto
        | quote first region =>
          have hfirst := first?_head?_cut (next :: more)
          rw [hs, List.find?_cons_of_neg (by simp [hblank])] at hfirst
          have hmem : first ∈ more := List.mem_of_find?_eq_some hfirst.symm
          have heq := number_eq_of_follows hfollows (Bool.and_eq_true_iff.1 hinto).2
          have hpart : Line.Run text (next :: more) := by
            rw [← hrest]
            exact hrun.part ((List.dropWhile_suffix _).trans (List.suffix_cons _ _)).isInfix
          have hlt := (List.pairwise_cons.1 hpart.ordered).1 first hmem
          omega
      rw [hnone]
      simp [Option.filter, Line.isIndented, hk]

theorem intruder_eq {lines : List Line} (hrun : Line.Run text lines) {s : Segment} {rest : List Segment}
    (h : s :: rest <:+ cut lines) :
    s.intruder = rest.head?.bind fun next => if s.runsInto next then next.first? else none := by
  fun_induction cut lines with
  | case1 => simp at h
  | case2 line lines hk ih => exact ih (hrun.part (List.suffix_cons _ _).isInfix) h
  | case3 line lines hk region ih =>
    rcases List.suffix_cons_iff.1 h with heq | h
    · obtain ⟨rfl, rfl⟩ := List.cons.inj heq
      simp [intruder, runsInto, keepsApart]
    · exact ih (hrun.part (Region.read_rest_suffix _).isInfix) h
  | case4 line lines hk hi region run ih =>
    have hlines : Line.Run text lines := hrun.part (List.suffix_cons _ _).isInfix
    have hrest : Line.Run text region.rest := hlines.part (Region.read_rest_suffix lines).isInfix
    rcases List.suffix_cons_iff.1 h with heq | h
    · obtain ⟨rfl, rfl⟩ := List.cons.inj heq
      rcases lines with _ | ⟨next, more⟩
      · simp at hi
      · -- the region of the first term sets up what the run of the others keeps
        have hread := endsAt_read (Line.contents [line]) (by simpa using hi) hlines
        have hends := endsAt_definitionRun hrest _ hread
        exact intruder_of_endsAt hends
    · exact ih (hrest.part (definitionRun_rest_suffix _ _).isInfix) h
  | case5 line lines hk hi ih =>
    rcases List.suffix_cons_iff.1 h with heq | h
    · obtain ⟨rfl, rfl⟩ := List.cons.inj heq
      exact intruder_of_paragraph hrun (by simp [Line.isText, hk]) hi _
    · exact ih (hrun.part ((List.dropWhile_suffix _).trans (List.suffix_cons _ _)).isInfix) h

end

end Segment

end LispDoc
