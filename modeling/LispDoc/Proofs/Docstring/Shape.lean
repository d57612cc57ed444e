import LispDoc.Proofs.Docstring.OffSide
import LispDoc.Proofs.Docstring.Warnings

/-!
# The shape of block trees

Whatever the docstring, its block tree is well formed at every depth (`Docstring.wellShaped_parse`). The lines of a
paragraph are neither blank nor indented. Lists have items, items have terms, and definitions and quotes hold a
paragraph or a list directly, besides quotes. After a list comes a paragraph, and a quote is never followed by another
one.

That something stands directly in each definition and quote is the off-side rule
(`Docstring.exists_memberLines_ne_nil`). The order of blocks is that of segments: a region ends in front of a line of
text, and a run of definitions in front of one that is no term (`Segment.isChain_cut`). And no line ends in white space,
which taking off indentation does not change (`Line.Trimmed`).
-/

namespace LispDoc

/-! ### Lines without white space at the end -/

theorem Text.mem_dropWhile_isBlank {c : Char} {cs : List Char} (h : c ∈ cs) (hc : isBlank c = false) :
    c ∈ cs.dropWhile isBlank := by
  rw [← List.takeWhile_append_dropWhile (p := isBlank) (l := cs), List.mem_append] at h
  refine h.resolve_left fun hmem => ?_
  rw [List.all_eq_true.1 List.all_takeWhile c hmem] at hc
  cases hc

theorem Text.mem_trim {c : Char} {cs : List Char} (h : c ∈ cs) (hc : isBlank c = false) : c ∈ trim cs :=
  List.mem_reverse.2 (mem_dropWhile_isBlank (List.mem_reverse.2 (mem_dropWhile_isBlank h hc)) hc)

namespace Line

theorem Trimmed.drop {line : Line} (h : line.Trimmed) (n : Nat) : (line.drop n).Trimmed := by
  intro c hc
  rw [Line.drop, List.getLast?_drop] at hc
  split at hc
  · cases hc
  · exact h c hc

/-- A line that is not blank has a character besides white space. -/
theorem Trimmed.exists_mem {line : Line} (h : line.Trimmed) (hb : line.isBlank = false) :
    ∃ c ∈ line.text, Text.isBlank c = false := by
  cases hlast : line.text.getLast? with
  | none =>
    rw [(Segment.isBlank_iff line).2 (List.getLast?_eq_none_iff.1 hlast)] at hb
    cases hb
  | some c => exact ⟨c, List.mem_of_getLast? hlast, h c hlast⟩

end Line

/-! ### The order of segments -/

namespace Segment

/-- A list comes before paragraphs only, and a quote before anything but a quote. -/
def MayPrecede : Segment → Segment → Prop
  | definitions .., paragraph .. => True
  | definitions .., _ => False
  | quote .., quote .. => False
  | _, _ => True

private theorem mayPrecede_of_quote {first : Line} {region lines : List Line}
    (h : ∀ line ∈ lines.head?, line.isText = true) :
    ∀ next ∈ (cut lines).head?, (quote first region).MayPrecede next := by
  rcases lines with _ | ⟨line, rest⟩
  · simp
  · have htext := h line (by simp)
    intro next hnext
    cases hi : rest.head?.any Line.isIndented with
    | true =>
      rw [cut_of_term htext hi, List.head?_cons, Option.mem_some_iff] at hnext
      rw [← hnext]
      trivial
    | false =>
      rw [cut_of_isText htext hi, List.head?_cons, Option.mem_some_iff] at hnext
      rw [← hnext]
      trivial

/-- A line of text that is no term starts a paragraph. -/
private theorem mayPrecede_of_definitions {items : List (Line × List Line)} {intruder : Option Line} {line : Line}
    {rest : List Line} (h : line.isText = true) (hi : rest.head?.any Line.isIndented = false) :
    ∀ next ∈ (cut (line :: rest)).head?, (definitions items intruder).MayPrecede next := by
  intro next hnext
  rw [cut_of_isText h hi, List.head?_cons, Option.mem_some_iff] at hnext
  rw [← hnext]
  trivial

private theorem mayPrecede_of_run {items : List (Line × List Line)} {intruder : Option Line} {finish : Bool}
    {lines : List Line} (h : ∀ line ∈ lines.head?, line.isText = true) :
    ∀ next ∈ (cut (definitionRun finish lines).2.2).head?, (definitions items intruder).MayPrecede next := by
  induction finish, lines using run_induction with
  | item finish term next rest hc ih =>
    rw [definitionRun_of_item hc]
    exact ih fun line hl => Region.isText_of_head?_rest hl
  | stop finish lines hstop =>
    rw [definitionRun_of_not_startsItem hstop]
    rcases lines with _ | ⟨line, rest⟩
    · simp
    · have htext := h line (by simp)
      exact mayPrecede_of_definitions htext (by simpa [startsItem, htext] using hstop)

theorem isChain_cut (lines : List Line) : (cut lines).IsChain MayPrecede := by
  fun_induction cut lines with
  | case1 => exact .nil
  | case2 line rest hk ih => exact ih
  | case3 line rest hk region ih =>
    exact ih.cons (mayPrecede_of_quote fun line hl => Region.isText_of_head?_rest hl)
  | case4 line rest hk hi region run ih =>
    exact ih.cons (mayPrecede_of_run fun line hl => Region.isText_of_head?_rest hl)
  | case5 line rest hk hi ih => exact ih.cons fun _ _ => trivial

/-- The lines of a region are lines of the whole without some of their first characters. -/
private theorem exists_drop_of_mem_region {lines region : List Line} {s : Segment} (hs : s.DrawnFrom lines)
    (hr : region ∈ s.regions) {line : Line} (hl : line ∈ region) : ∃ k ∈ lines, ∃ n, line = k.drop n := by
  have hat : ∃ first, RegionAt lines first region := by
    cases s with
    | paragraph ls intruder => simp [regions] at hr
    | definitions items intruder =>
      obtain ⟨item, hitem, rfl⟩ := List.mem_map.1 hr
      exact (hs.2 item hitem).2.2
    | quote first ls =>
      obtain rfl := List.mem_singleton.1 hr
      exact ⟨first, hs⟩
  obtain ⟨first, -, more, hpart, rfl⟩ := hat
  obtain ⟨k, hk, rfl⟩ := List.mem_map.1 hl
  exact ⟨k, hpart.subset hk, _, rfl⟩

end Segment

/-! ### The shape of blocks -/

namespace Block

def isQuote : Block → Bool
  | blockQuote .. => true
  | _ => false

/-- Some block of a sequence is a paragraph or a definition list, so that there is one. -/
def HasOwn (blocks : List Block) : Prop := ∃ block ∈ blocks, block.isQuote = false

/-- What holds of a block by itself. Each line of a paragraph has a character besides white space and does not start
with a space. -/
def Proper : Block → Prop
  | paragraph raw _ _ => raw ≠ "" ∧ ∀ line ∈ Text.splitAt '\n' raw.toList,
      (∃ c ∈ line, Text.isBlank c = false) ∧ line.head? ≠ some ' '
  | definitionList items _ => items ≠ [] ∧ ∀ item ∈ items, item.term ≠ "" ∧ HasOwn item.definition
  | blockQuote children _ => HasOwn children

/-- The order in which blocks follow each other. -/
def MayPrecede : Block → Block → Prop
  | definitionList .., paragraph .. => True
  | definitionList .., _ => False
  | blockQuote .., blockQuote .. => False
  | _, _ => True

/-- What holds of a sequence of blocks. -/
structure WellShaped (blocks : List Block) : Prop where
  proper : ∀ block ∈ blocks, block.Proper
  order : blocks.IsChain MayPrecede

private theorem isQuote_of_memberLines {block : Block} (h : block.memberLines ≠ []) : block.isQuote = false := by
  cases block with
  | paragraph => rfl
  | definitionList => rfl
  | blockQuote => exact absurd rfl h

end Block

namespace Docstring

open Block

variable {text : List Char} {source : Source} {lines : List Line} (inline : List Char → List Inline)

/-- Something stands directly in a region. -/
private theorem hasOwn_ofLines {region : List Line} {n : Nat} (hr : Segment.RegionFrom lines n region)
    (hrun : Line.Run text lines) : HasOwn (ofLines inline source region).blocks := by
  obtain ⟨block, hblock, hmember⟩ := exists_memberLines_ne_nil inline hr hrun
  exact ⟨block, hblock, isQuote_of_memberLines hmember⟩

private theorem proper_paragraph (hne : lines ≠ []) (hrun : Line.Run text lines)
    (htrimmed : ∀ line ∈ lines, line.Trimmed)
    (htext : ∀ line ∈ lines, line.isText = true) (content : List Inline) (origin : Origin) :
    Proper (.paragraph (String.ofList (rawText lines)) content origin) := by
  have hlines : ∀ piece ∈ Text.splitAt '\n' (rawText lines),
      (∃ c ∈ piece, Text.isBlank c = false) ∧ piece.head? ≠ some ' ' := by
    rw [splitAt_rawText hne hrun.noBreak]
    intro piece hpiece
    obtain ⟨line, hl, rfl⟩ := List.mem_map.1 hpiece
    refine ⟨(htrimmed line hl).exists_mem (Line.isBlank_of_isText (htext line hl)), fun hspace => ?_⟩
    have hnot := Line.isText_of_isIndented ((Segment.isIndented_iff line).2 hspace)
    rw [htext line hl] at hnot
    cases hnot
  refine ⟨fun hempty => ?_, by rwa [String.toList_ofList]⟩
  rw [String.ofList_eq_empty_iff] at hempty
  -- an empty text is one empty line
  rw [hempty] at hlines
  obtain ⟨⟨c, hc, -⟩, -⟩ := hlines [] (by simp [Text.splitAt])
  cases hc

private theorem proper_blockOf (hrun : Line.Run text lines) (htrimmed : ∀ line ∈ lines, line.Trimmed) {s : Segment}
    (hs : s ∈ Segment.cut lines) :
    (blockOf inline source (fun region => (ofLines inline source region).blocks) s).Proper := by
  have hdrawn := Segment.drawnFrom_of_mem_cut hs
  have hstarts := Segment.startsIn_of_mem_cut hrun.follow hs
  cases s with
  | paragraph ls intruder =>
    obtain ⟨hpart, hne, htext⟩ := hdrawn
    exact proper_paragraph hne (hrun.part hpart) (fun line hl => htrimmed line (hpart.subset hl)) htext _ _
  | definitions items intruder =>
    refine ⟨by simpa using hdrawn.1, fun item hitem => ?_⟩
    obtain ⟨term, hterm, rfl⟩ := List.mem_map.1 hitem
    obtain ⟨hmem, htext, -⟩ := hdrawn.2 term hterm
    obtain ⟨c, hc, hblank⟩ := (htrimmed term.1 hmem).exists_mem (Line.isBlank_of_isText htext)
    refine ⟨fun hempty => ?_, hasOwn_ofLines inline (hstarts term hterm) hrun⟩
    have hmem := Text.mem_trim hc hblank
    rw [String.ofList_eq_empty_iff.1 hempty] at hmem
    cases hmem
  | quote first region => exact hasOwn_ofLines inline hstarts hrun

private theorem wellShaped_ofLines (hrun : Line.Run text lines) (htrimmed : ∀ line ∈ lines, line.Trimmed) :
    WellShaped (ofLines inline source lines).blocks := by
  rw [blocks_ofLines]
  constructor
  · intro block hblock
    obtain ⟨s, hs, rfl⟩ := List.mem_map.1 hblock
    exact proper_blockOf inline hrun htrimmed hs
  · refine (List.isChain_map _).2 ((Segment.isChain_cut lines).imp fun s t h => ?_)
    cases s <;> cases t <;> exact h

private theorem wellShaped_sequences (source : Source) (hrun : Line.Run text lines)
    (htrimmed : ∀ line ∈ lines, line.Trimmed) :
    ∀ s ∈ sequencesOf (ofLines inline source lines).blocks, WellShaped s := by
  induction lines using Segment.region_induction with
  | h lines ih =>
    intro s hs
    obtain ⟨block, hblock, hs⟩ := mem_sequencesOf.1 hs
    obtain ⟨segment, hsegment, hblock⟩ := mem_blocks_ofLines hblock
    obtain ⟨part, hpart, hs⟩ := mem_sequences.1 hs
    obtain ⟨region, hmem, hr, hblocks⟩ :=
      exists_region_of_mem_inner inline _ (Segment.startsIn_of_mem_cut hrun.follow hsegment) hblock hpart
    have hregion : ∀ line ∈ region, line.Trimmed := by
      intro line hl
      obtain ⟨k, hk, n, rfl⟩ :=
        Segment.exists_drop_of_mem_region (Segment.drawnFrom_of_mem_cut hsegment) hmem hl
      exact (htrimmed k hk).drop n
    rw [hblocks] at hs
    rcases hs with rfl | hs
    · exact wellShaped_ofLines inline (hr.run hrun) hregion
    · exact ih segment hsegment region hmem (hr.run hrun) hregion s hs

/-- The blocks of a docstring are well shaped, and so are the blocks of each definition and each quote in it. -/
theorem wellShaped_parse (options : Options) (source : Source) (text : String) :
    WellShaped (parse options source text).blocks ∧
      ∀ s ∈ sequencesOf (parse options source text).blocks, WellShaped s := by
  have hrun := Line.run_split options.tabWidth text.toList
  have htrimmed : ∀ line ∈ Line.split options.tabWidth text.toList, line.Trimmed :=
    fun line hl => Line.trimmed_of_mem_split hl
  exact ⟨wellShaped_ofLines options.markup.nodes hrun htrimmed,
    wellShaped_sequences options.markup.nodes source hrun htrimmed⟩

end Docstring

end LispDoc
