import LispDoc.Proofs.Docstring.Composition

/-!
# The number of blank lines

How many blank lines stand together in a docstring does not matter, as long as there is one, nor does the white space in
them: the blocks and diagnostics are the same, moved to where the other lines have moved (`Docstring.parse_respaced`).

Two sequences of lines that differ in their runs of blank lines are related by `Respaced`. The relation is kept by
everything that the parser does with lines: reading a region, a run of definitions, or all segments
(`Segment.respaced_cut`). From there the blocks follow by induction on regions.
-/

namespace LispDoc

/-! ### Sequences that differ in their blanks -/

/-- Blanks that follow each other, at least one. -/
structure BlankRun {α : Type} (blank : α → Bool) (run : List α) : Prop where
  ne_nil : run ≠ []
  blank : ∀ a ∈ run, blank a = true

/-- Two sequences are the same but for their runs of blanks: a run in one stands where a run in the other does. -/
inductive Respaced {α : Type} (blank : α → Bool) : List α → List α → Prop
  | nil : Respaced blank [] []
  | keep (a : α) {as bs : List α} (h : Respaced blank as bs) : Respaced blank (a :: as) (a :: bs)
  | respace {run other as bs : List α} (hrun : BlankRun blank run) (hother : BlankRun blank other)
      (h : Respaced blank as bs) : Respaced blank (run ++ as) (other ++ bs)

section

variable {α β : Type} {blank : α → Bool} {run as bs : List α}

theorem BlankRun.exists_cons (h : BlankRun blank run) : ∃ a more, run = a :: more ∧ blank a = true := by
  obtain ⟨a, more, rfl⟩ := List.exists_cons_of_ne_nil h.ne_nil
  exact ⟨a, more, rfl, h.blank a (by simp)⟩

theorem BlankRun.reverse (h : BlankRun blank run) : BlankRun blank run.reverse :=
  ⟨mt List.reverse_eq_nil_iff.1 h.ne_nil, fun a ha => h.blank a (List.mem_reverse.1 ha)⟩

theorem BlankRun.map {blank' : β → Bool} {f : α → β} (hf : ∀ a, blank a = true → blank' (f a) = true)
    (h : BlankRun blank run) : BlankRun blank' (run.map f) := by
  refine ⟨mt List.map_eq_nil_iff.1 h.ne_nil, fun b hb => ?_⟩
  obtain ⟨a, ha, rfl⟩ := List.mem_map.1 hb
  exact hf a (h.blank a ha)

namespace Respaced

theorem append {cs ds : List α} (h : Respaced blank as bs) (h' : Respaced blank cs ds) :
    Respaced blank (as ++ cs) (bs ++ ds) := by
  induction h with
  | nil => exact h'
  | keep a _ ih => exact .keep a ih
  | respace hrun hother _ ih =>
    rw [List.append_assoc, List.append_assoc]
    exact .respace hrun hother ih

theorem reverse (h : Respaced blank as bs) : Respaced blank as.reverse bs.reverse := by
  induction h with
  | nil => exact .nil
  | keep a _ ih =>
    rw [List.reverse_cons, List.reverse_cons]
    exact ih.append (.keep a .nil)
  | respace hrun hother _ ih =>
    have hblanks := respace hrun.reverse hother.reverse .nil
    rw [List.append_nil, List.append_nil] at hblanks
    rw [List.reverse_append, List.reverse_append]
    exact ih.append hblanks

theorem map {blank' : β → Bool} {f : α → β} (hf : ∀ a, blank a = true → blank' (f a) = true)
    (h : Respaced blank as bs) : Respaced blank' (as.map f) (bs.map f) := by
  induction h with
  | nil => exact .nil
  | keep a _ ih => exact .keep (f a) ih
  | respace hrun hother _ ih =>
    rw [List.map_append, List.map_append]
    exact .respace (hrun.map hf) (hother.map hf) ih

private theorem filter_eq (h : Respaced blank as bs) : as.filter (!blank ·) = bs.filter (!blank ·) := by
  have hnone : ∀ {run : List α}, BlankRun blank run → run.filter (!blank ·) = [] := by
    intro run hrun
    rw [List.filter_eq_nil_iff]
    intro a ha
    simp [hrun.blank a ha]
  induction h with
  | nil => rfl
  | keep a _ ih => rw [List.filter_cons, List.filter_cons, ih]
  | respace hrun hother _ ih => rw [List.filter_append, List.filter_append, hnone hrun, hnone hother, ih]

/-- Without blanks there is nothing to differ in. -/
private theorem eq_of_forall (h : Respaced blank as bs) (ha : ∀ a ∈ as, blank a = false)
    (hb : ∀ b ∈ bs, blank b = false) :
    as = bs := by
  have has : as.filter (!blank ·) = as := List.filter_eq_self.2 fun a hmem => by simp [ha a hmem]
  have hbs : bs.filter (!blank ·) = bs := List.filter_eq_self.2 fun b hmem => by simp [hb b hmem]
  rw [← has, ← hbs, h.filter_eq]

private theorem isEmpty_eq (h : Respaced blank as bs) : as.isEmpty = bs.isEmpty := by
  cases h with
  | nil => rfl
  | keep a h => rfl
  | respace hrun hother h =>
    obtain ⟨a, more, rfl, -⟩ := hrun.exists_cons
    obtain ⟨b, more', rfl, -⟩ := hother.exists_cons
    rfl

/-- Blanks that the sequence starts with may be passed over on both sides. -/
private theorem tail_of_blank {a : α} (ha : blank a = true) (h : Respaced blank (a :: as) bs) :
    ∃ run rest, bs = run ++ rest ∧ (∀ b ∈ run, blank b = true) ∧ Respaced blank as rest := by
  generalize hxs : a :: as = xs at h
  cases h with
  | nil => cases hxs
  | keep b h =>
    obtain ⟨rfl, rfl⟩ := List.cons.inj hxs
    exact ⟨[a], _, rfl, by simpa using ha, h⟩
  | @respace run other cs ds hrun hother h =>
    obtain ⟨b, more, rfl, -⟩ := hrun.exists_cons
    obtain ⟨rfl, rfl⟩ := List.cons.inj hxs
    rcases more with _ | ⟨c, more⟩
    · exact ⟨other, ds, rfl, hother.blank, h⟩
    · have hmore : BlankRun blank (c :: more) :=
        ⟨List.cons_ne_nil _ _, fun d hd => hrun.blank d (List.mem_cons_of_mem _ hd)⟩
      exact ⟨[], _, rfl, by simp, respace hmore hother h⟩

/-- What is no blank stands in both sequences. -/
private theorem tail_of_not_blank {a : α} (ha : blank a = false) (h : Respaced blank (a :: as) bs) :
    ∃ rest, bs = a :: rest ∧ Respaced blank as rest := by
  generalize hxs : a :: as = xs at h
  cases h with
  | nil => cases hxs
  | keep b h =>
    obtain ⟨rfl, rfl⟩ := List.cons.inj hxs
    exact ⟨_, rfl, h⟩
  | respace hrun hother h =>
    obtain ⟨b, more, rfl, hb⟩ := hrun.exists_cons
    obtain ⟨rfl, rfl⟩ := List.cons.inj hxs
    rw [ha] at hb
    cases hb

variable {p : α → Bool} {c : Bool}

/-! A condition `p` that all blanks meet, or none does, stops at the same place in both sequences. -/

private theorem any_head? (hp : ∀ a, blank a = true → p a = c) (h : Respaced blank as bs) :
    as.head?.any p = bs.head?.any p := by
  cases h with
  | nil => rfl
  | keep a h => rfl
  | respace hrun hother h =>
    obtain ⟨a, more, rfl, ha⟩ := hrun.exists_cons
    obtain ⟨b, more', rfl, hb⟩ := hother.exists_cons
    simp [hp a ha, hp b hb]

theorem takeWhile (hp : ∀ a, blank a = true → p a = c) (h : Respaced blank as bs) :
    Respaced blank (as.takeWhile p) (bs.takeWhile p) := by
  induction h with
  | nil => exact .nil
  | keep a _ ih =>
    rw [List.takeWhile_cons, List.takeWhile_cons]
    split
    · exact .keep a ih
    · exact .nil
  | respace hrun hother _ ih =>
    cases c with
    | true =>
      rw [List.takeWhile_append_of_pos fun a ha => hp a (hrun.blank a ha),
        List.takeWhile_append_of_pos fun a ha => hp a (hother.blank a ha)]
      exact .respace hrun hother ih
    | false =>
      obtain ⟨a, more, rfl, ha⟩ := hrun.exists_cons
      obtain ⟨b, more', rfl, hb⟩ := hother.exists_cons
      simpa [hp a ha, hp b hb] using nil

theorem dropWhile (hp : ∀ a, blank a = true → p a = c) (h : Respaced blank as bs) :
    Respaced blank (as.dropWhile p) (bs.dropWhile p) := by
  induction h with
  | nil => exact .nil
  | keep a h ih =>
    rw [List.dropWhile_cons, List.dropWhile_cons]
    split
    · exact ih
    · exact .keep a h
  | respace hrun hother h ih =>
    cases c with
    | true =>
      rw [List.dropWhile_append_of_pos fun a ha => hp a (hrun.blank a ha),
        List.dropWhile_append_of_pos fun a ha => hp a (hother.blank a ha)]
      exact ih
    | false =>
      have hall := respace hrun hother h
      obtain ⟨a, more, rfl, ha⟩ := hrun.exists_cons
      obtain ⟨b, more', rfl, hb⟩ := hother.exists_cons
      simpa [hp a ha, hp b hb] using hall

private theorem any_getLast? (hp : ∀ a, blank a = true → p a = c) (h : Respaced blank as bs) :
    as.getLast?.any p = bs.getLast?.any p := by
  have hhead := h.reverse.any_head? hp
  rwa [List.head?_reverse, List.head?_reverse] at hhead

private theorem head?_eq (h : Respaced blank as bs) (ha : ∀ a ∈ as.head?, blank a = false) : as.head? = bs.head? := by
  rcases as with _ | ⟨a, as⟩
  · have hempty := h.isEmpty_eq
    rw [List.isEmpty_iff.1 hempty.symm]
  · obtain ⟨rest, rfl, -⟩ := h.tail_of_not_blank (ha a (by simp))
    rfl

private theorem filter_head? (hp : ∀ a, blank a = true → p a = false) (h : Respaced blank as bs) :
    as.head?.filter p = bs.head?.filter p := by
  cases h with
  | nil => rfl
  | keep a h => rfl
  | respace hrun hother h =>
    obtain ⟨a, more, rfl, ha⟩ := hrun.exists_cons
    obtain ⟨b, more', rfl, hb⟩ := hother.exists_cons
    simp [Option.filter, hp a ha, hp b hb]

end Respaced

end

/-! ### Regions and segments -/

theorem Line.isBlank_drop_of_isBlank (n : Nat) {line : Line} (h : line.isBlank = true) :
    (line.drop n).isBlank = true := by
  rw [Segment.isBlank_iff] at h ⊢
  simp [Line.drop, h]

section

variable {as bs : List Line}

theorem Line.commonIndent_eq (h : Respaced isBlank as bs) : commonIndent as = commonIndent bs := by
  rw [commonIndent, commonIndent, h.filter_eq]

theorem Line.respaced_dedent (h : Respaced isBlank as bs) : Respaced isBlank (dedent as) (dedent bs) := by
  rw [dedent, dedent, commonIndent_eq h]
  exact h.map fun line => isBlank_drop_of_isBlank _

theorem Region.respaced_dropTrailingBlank (h : Respaced Line.isBlank as bs) :
    Respaced Line.isBlank (dropTrailingBlank as) (dropTrailingBlank bs) :=
  (h.reverse.dropWhile fun _ hb => hb).reverse

/-- Two regions that differ in their blank lines only, and are followed by a blank line both or neither. -/
structure Region.Respaced (r s : Region) : Prop where
  lines : LispDoc.Respaced Line.isBlank r.lines s.lines
  blankFinish : r.blankFinish = s.blankFinish
  rest : LispDoc.Respaced Line.isBlank r.rest s.rest

theorem Region.respaced_read (h : LispDoc.Respaced Line.isBlank as bs) : (read as).Respaced (read bs) := by
  have hp : ∀ line : Line, line.isBlank = true → (!line.isText) = true := by
    intro line hb
    rw [Line.isText_of_isBlank hb]
    rfl
  have htaken := h.takeWhile hp
  have hrest := h.dropWhile hp
  refine ⟨Line.respaced_dedent (respaced_dropTrailingBlank htaken), ?_, hrest⟩
  simp only [read]
  rw [hrest.isEmpty_eq, htaken.any_getLast? fun _ hb => hb]

namespace Segment

/-- The same term, and regions that differ in their blank lines only. -/
def ItemRespaced (a b : Line × List Line) : Prop := a.1 = b.1 ∧ LispDoc.Respaced Line.isBlank a.2 b.2

/-- The same segment but for the blank lines in its regions. -/
inductive Respaced : Segment → Segment → Prop
  | paragraph (lines : List Line) (intruder : Option Line) :
      Respaced (.paragraph lines intruder) (.paragraph lines intruder)
  | definitions {items others : List (Line × List Line)} (h : List.Forall₂ ItemRespaced items others)
      (intruder : Option Line) : Respaced (.definitions items intruder) (.definitions others intruder)
  | quote (first : Line) {region other : List Line} (h : LispDoc.Respaced Line.isBlank region other) :
      Respaced (.quote first region) (.quote first other)

private theorem startsItem_eq (h : LispDoc.Respaced Line.isBlank as bs) : startsItem as = startsItem bs := by
  have hhead := h.any_head? fun _ => Line.isText_of_isBlank
  cases htext : as.head?.any Line.isText with
  | false => rw [startsItem, startsItem, ← hhead, htext, Bool.false_and, Bool.false_and]
  | true =>
    rcases as with _ | ⟨line, as⟩
    · cases htext
    · obtain ⟨rest, rfl, hrest⟩ := h.tail_of_not_blank (Line.isBlank_of_isText htext)
      have hnext := hrest.any_head? fun _ => Line.isIndented_of_isBlank
      rw [startsItem, startsItem, ← hhead, List.tail_cons, List.tail_cons, hnext]

/-- Runs of definitions hold the same terms, and end in the same way and at the same line. -/
private theorem respaced_definitionRun (finish : Bool) (h : LispDoc.Respaced Line.isBlank as bs) :
    List.Forall₂ ItemRespaced (definitionRun finish as).1 (definitionRun finish bs).1 ∧
      (definitionRun finish as).2.1 = (definitionRun finish bs).2.1 ∧
      LispDoc.Respaced Line.isBlank (definitionRun finish as).2.2 (definitionRun finish bs).2.2 := by
  induction finish, as using run_induction generalizing bs with
  | item finish term next rest hc ih =>
    have hboth := Bool.and_eq_true_iff.1 hc
    obtain ⟨after, rfl, hafter⟩ := h.tail_of_not_blank (Line.isBlank_of_isText hboth.1)
    have hregion := Region.respaced_read hafter
    obtain ⟨more, rfl, -⟩ := hafter.tail_of_not_blank (Line.isBlank_of_isIndented hboth.2)
    obtain ⟨hitems, hfinish, hrest⟩ := ih hregion.rest
    rw [definitionRun_of_item hc, definitionRun_of_item hc]
    simp only [← hregion.blankFinish]
    exact ⟨.cons ⟨rfl, hregion.lines⟩ hitems, hfinish, hrest⟩
  | stop finish lines hstop =>
    rw [definitionRun_of_not_startsItem hstop, definitionRun_of_not_startsItem ((startsItem_eq h).symm.trans hstop)]
    exact ⟨.nil, rfl, h⟩

theorem respaced_cut (h : LispDoc.Respaced Line.isBlank as bs) : List.Forall₂ Respaced (cut as) (cut bs) := by
  induction as using cut_induction generalizing bs with
  | nil =>
    have hempty := h.isEmpty_eq
    rw [List.isEmpty_iff.1 hempty.symm, cut_nil]
    exact .nil
  | blank line rest hblank ih =>
    obtain ⟨run, after, rfl, hrun, hafter⟩ := h.tail_of_blank hblank
    rw [cut_of_isBlank hblank, cut_blanks hrun]
    exact ih hafter
  | indented line rest hindented ih =>
    have hregion := Region.respaced_read h
    obtain ⟨after, rfl, -⟩ := h.tail_of_not_blank (Line.isBlank_of_isIndented hindented)
    rw [cut_of_isIndented hindented, cut_of_isIndented hindented]
    exact .cons (.quote line hregion.lines) (ih hregion.rest)
  | term line rest htext hi ih =>
    obtain ⟨after, rfl, hafter⟩ := h.tail_of_not_blank (Line.isBlank_of_isText htext)
    have hnext : after.head?.any Line.isIndented = true := by
      rw [← hafter.any_head? fun _ => Line.isIndented_of_isBlank, hi]
    have hregion := Region.respaced_read hafter
    obtain ⟨hitems, hfinish, hrest⟩ := respaced_definitionRun (Region.read rest).blankFinish hregion.rest
    -- a run ends in front of a line of text, which therefore stands in both sequences
    have hhead := hrest.head?_eq fun l hl =>
      Line.isBlank_of_isText (isText_of_head?_definitionRun (fun _ => Region.isText_of_head?_rest) l hl)
    have hfirst : ItemRespaced (line, (Region.read rest).lines) (line, (Region.read after).lines) :=
      ⟨rfl, hregion.lines⟩
    rw [cut_of_term htext hi, cut_of_term htext hnext, ← hregion.blankFinish]
    simp only [← hfinish, ← hhead]
    exact .cons (.definitions (.cons hfirst hitems) _) (ih hrest)
  | text line rest htext hi ih =>
    have hp : ∀ line : Line, line.isBlank = true → line.isText = false := fun _ => Line.isText_of_isBlank
    obtain ⟨after, rfl, hafter⟩ := h.tail_of_not_blank (Line.isBlank_of_isText htext)
    have hnext : after.head?.any Line.isIndented = false := by
      rw [← hafter.any_head? fun _ => Line.isIndented_of_isBlank, hi]
    have hnotBlank : ∀ lines : List Line, ∀ l ∈ lines.takeWhile Line.isText, l.isBlank = false :=
      fun lines l hl => Line.isBlank_of_isText (List.all_eq_true.1 List.all_takeWhile l hl)
    have htake : rest.takeWhile Line.isText = after.takeWhile Line.isText :=
      (hafter.takeWhile hp).eq_of_forall (hnotBlank rest) (hnotBlank after)
    have hrest := hafter.dropWhile hp
    rw [cut_of_isText htext hi, cut_of_isText htext hnext, htake, hafter.any_head? hp,
      hrest.filter_head? fun _ => Line.isIndented_of_isBlank]
    exact .cons (.paragraph _ _) (ih hrest)

end Segment

end

/-! ### Blocks -/

private theorem map_eq_of_forall₂ {α β : Type} {R : α → α → Prop} {f : α → β} {as bs : List α}
    (h : List.Forall₂ R as bs) (hf : ∀ a ∈ as, ∀ b, R a b → f a = f b) : as.map f = bs.map f := by
  induction h with
  | nil => rfl
  | cons hab _ ih =>
    have hfirst := hf _ (by simp) _ hab
    have hrest := ih fun a ha => hf a (by simp [ha])
    rw [List.map_cons, List.map_cons, hfirst, hrest]

namespace Docstring

variable (inline : List Char → List Inline) (source : Source)

/-- Segments that differ in blank lines are read alike, if their regions are. -/
private theorem ofSegment_eq_of_respaced {nested : List Line → Parsed} {s t : Segment} (h : s.Respaced t)
    (hnested : ∀ region ∈ s.regions, ∀ other, Respaced Line.isBlank region other → nested region = nested other) :
    (ofSegment inline source s fun region _ => nested region) =
      ofSegment inline source t fun region _ => nested region := by
  cases h with
  | paragraph lines intruder => rfl
  | quote first hregion =>
    simp only [ofSegment]
    rw [hnested _ (by simp [Segment.regions]) _ hregion]
  | @definitions items others hitems intruder =>
    have hread : ∀ item ∈ items, ∀ other, Segment.ItemRespaced item other →
        (item.1, nested item.2) = (other.1, nested other.2) := by
      intro item hitem other hother
      rw [hother.1, hnested item.2 (List.mem_map.2 ⟨item, hitem, rfl⟩) other.2 hother.2]
    have hparsed := map_eq_of_forall₂ hitems hread
    have hterm : items.head?.map (·.1) = others.head?.map (·.1) := by
      cases hitems with
      | nil => rfl
      | cons hitem _ => exact congrArg some hitem.1
    simp only [ofSegment]
    rw [List.attach_map_val (f := fun item : Line × List Line => (item.1, nested item.2)),
      List.attach_map_val (f := fun item : Line × List Line => (item.1, nested item.2)), hparsed, hterm]

private theorem ofLines_eq_of_respaced {as bs : List Line} (h : Respaced Line.isBlank as bs) :
    ofLines inline source as = ofLines inline source bs := by
  induction as using Segment.region_induction generalizing bs with
  | h as ih =>
    have hread : ∀ s ∈ Segment.cut as, ∀ t, s.Respaced t →
        (ofSegment inline source s fun region _ => ofLines inline source region) =
          ofSegment inline source t fun region _ => ofLines inline source region := by
      intro s hs t hst
      exact ofSegment_eq_of_respaced inline source hst fun region hr other hother => ih s hs region hr hother
    rw [ofLines_eq, ofLines_eq, map_eq_of_forall₂ (Segment.respaced_cut h) hread]

end Docstring

/-! ### Texts -/

namespace Line

/-- Whether a line of a text holds nothing but white space. -/
def isBlankText (raw : List Char) : Bool := raw.all Text.isBlank

private theorem isBlank_of_isBlankText (width number offset : Nat) {raw : List Char} (h : isBlankText raw = true) :
    isBlank ⟨number, offset, Text.trimEnd (expandTabs width raw)⟩ = true := by
  rw [Segment.isBlank_iff]
  have hall : ∀ c ∈ expandTabs width raw, Text.isBlank c = true := by
    intro c hc
    rcases mem_expandTabsFrom hc with rfl | hc
    · decide
    · exact List.all_eq_true.1 h c hc
  have hnil : (expandTabs width raw).reverse.dropWhile Text.isBlank = [] :=
    List.dropWhile_eq_nil_iff.2 fun c hc => hall c (List.mem_reverse.1 hc)
  simp only [Text.trimEnd, hnil, List.reverse_nil]

private theorem blankRun_numbered (width number offset : Nat) {raws : List (List Char)}
    (h : BlankRun isBlankText raws) :
    BlankRun isBlank (numbered width number offset raws) := by
  refine ⟨?_, fun line hl => ?_⟩
  · obtain ⟨raw, more, rfl, -⟩ := h.exists_cons
    exact List.cons_ne_nil _ _
  · obtain ⟨raw, hraw, n, k, rfl⟩ := exists_raw_of_mem_numbered hl
    exact isBlank_of_isBlankText width n k (h.blank raw hraw)

private theorem le_of_mem_numbered {width number offset : Nat} {raws : List (List Char)} {line : Line}
    (h : line ∈ numbered width number offset raws) : number ≤ line.number ∧ offset ≤ line.offset := by
  induction raws generalizing number offset with
  | nil => cases h
  | cons raw raws ih =>
    rcases List.mem_cons.1 h with rfl | h
    · exact ⟨Nat.le_refl _, Nat.le_refl _⟩
    · have hrest := ih h
      omega

/-- The lines of texts that differ in blank lines, wherever the texts stand. Where the lines of the first have moved to
is found line by line from the end: each line comes before those for which that is known already. -/
private theorem exists_respaced_numbered (width : Nat) {raws others : List (List Char)}
    (h : Respaced isBlankText raws others) (n k m l : Nat) :
    ∃ f g, Respaced isBlank ((numbered width n k raws).map (move f g)) (numbered width m l others) := by
  induction h generalizing n k m l with
  | nil => exact ⟨id, id, .nil⟩
  | @keep raw raws others _ ih =>
    obtain ⟨f, g, hrest⟩ := ih (n + 1) (k + Text.byteSize raw + 1) (m + 1) (l + Text.byteSize raw + 1)
    refine ⟨Function.update f n m, Function.update g k l, ?_⟩
    have hlater : (numbered width (n + 1) (k + Text.byteSize raw + 1) raws).map
        (move (Function.update f n m) (Function.update g k l)) =
          (numbered width (n + 1) (k + Text.byteSize raw + 1) raws).map (move f g) := by
      apply List.map_congr_left
      intro line hl
      have hle := le_of_mem_numbered hl
      have hnumber : line.number ≠ n := by omega
      have hoffset : line.offset ≠ k := by omega
      rw [move, move, Function.update_of_ne hnumber, Function.update_of_ne hoffset]
    have hfirst : move (Function.update f n m) (Function.update g k l) ⟨n, k, Text.trimEnd (expandTabs width raw)⟩ =
        ⟨m, l, Text.trimEnd (expandTabs width raw)⟩ := by
      simp only [move, Function.update_self]
    rw [numbered, numbered, List.map_cons, hfirst, hlater]
    exact .keep _ hrest
  | @respace run other raws others hrun hother _ ih =>
    obtain ⟨f, g, hrest⟩ := ih (n + run.length) (k + Text.byteSize (List.intercalate ['\n'] run) + 1)
      (m + other.length) (l + Text.byteSize (List.intercalate ['\n'] other) + 1)
    refine ⟨f, g, ?_⟩
    rw [numbered_append _ _ _ hrun.ne_nil, numbered_append _ _ _ hother.ne_nil, List.map_append]
    exact .respace ((blankRun_numbered width n k hrun).map fun _ hb => hb) (blankRun_numbered width m l hother) hrest

end Line

namespace Docstring

/-- Only the presence of blank lines matters. If two docstrings differ in how many blank lines stand together and in the
white space that these hold, then they have the same blocks and the same diagnostics, apart from the lines and offsets
that they name. These are moved by `f` and `g`, which take the lines that are not blank from where they stand in the
first docstring to where they stand in the second. -/
theorem parse_respaced (options : Options) (source : Source) (a b : String)
    (h : Respaced Line.isBlankText (Line.rawLines a.toList) (Line.rawLines b.toList)) :
    ∃ f g,
      ((Line.split options.tabWidth a.toList).filter (!·.isBlank)).map (Line.move f g) =
          (Line.split options.tabWidth b.toList).filter (!·.isBlank) ∧
        parse options source b = (parse options source a).move f g := by
  obtain ⟨f, g, hlines⟩ := Line.exists_respaced_numbered options.tabWidth h 1 0 1 0
  rw [← Line.split_eq_numbered, ← Line.split_eq_numbered] at hlines
  refine ⟨f, g, ?_, ?_⟩
  · rw [← hlines.filter_eq, List.filter_map]
    rfl
  · rw [parse, ← ofLines_eq_of_respaced _ source hlines, ofLines_map_move]
    rfl

/-- One blank line between blocks becomes two, one inside a definition three. The last line is warned about. -/
theorem parse_respaced_glossary :
    Respaced Line.isBlankText (Line.rawLines "Units:\n\nsize\n  The width.\n\n  In pixels.\nend".toList)
        (Line.rawLines "Units:\n\t\n \nsize\n  The width.\n\n\n\n  In pixels.\nend".toList) ∧
      ∃ f g,
        ((Line.split 8 "Units:\n\nsize\n  The width.\n\n  In pixels.\nend".toList).filter (!·.isBlank)).map
              (Line.move f g) =
            (Line.split 8 "Units:\n\t\n \nsize\n  The width.\n\n\n\n  In pixels.\nend".toList).filter (!·.isBlank) ∧
          parse {} {} "Units:\n\t\n \nsize\n  The width.\n\n\n\n  In pixels.\nend" =
            (parse {} {} "Units:\n\nsize\n  The width.\n\n  In pixels.\nend").move f g := by
  have hlines : Respaced Line.isBlankText
      (Line.rawLines "Units:\n\nsize\n  The width.\n\n  In pixels.\nend".toList)
      (Line.rawLines "Units:\n\t\n \nsize\n  The width.\n\n\n\n  In pixels.\nend".toList) := by
    have hshort : Line.rawLines "Units:\n\nsize\n  The width.\n\n  In pixels.\nend".toList =
        "Units:".toList :: ([[]] ++ "size".toList :: "  The width.".toList ::
          ([[]] ++ ["  In pixels.".toList, "end".toList])) := by decide
    have hlong : Line.rawLines "Units:\n\t\n \nsize\n  The width.\n\n\n\n  In pixels.\nend".toList =
        "Units:".toList :: ([['\t'], [' ']] ++ "size".toList :: "  The width.".toList ::
          ([[], [], []] ++ ["  In pixels.".toList, "end".toList])) := by decide
    have hempty : BlankRun Line.isBlankText [[]] := ⟨by decide, by decide⟩
    rw [hshort, hlong]
    refine .keep _ (.respace hempty ⟨by decide, by decide⟩ (.keep _ (.keep _ ?_)))
    exact .respace hempty ⟨by decide, by decide⟩ (.keep _ (.keep _ .nil))
  exact ⟨hlines, parse_respaced {} {} _ _ hlines⟩

end Docstring

end LispDoc
