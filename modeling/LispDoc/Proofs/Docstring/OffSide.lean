import LispDoc.Proofs.Docstring.Coverage
import LispDoc.Proofs.Docstring.Indentation

/-!
# The off-side rule

Indentation alone tells the nesting of a block tree. Everything that stands directly in a sequence of blocks, lines of
paragraphs and terms, is indented alike, say by `b`; and a definition or a quote in the sequence takes the lines from
where it starts up to the next line indented by `b` at most (`Block.AlignedAt`).

The parser never sees absolute indentations: it takes a common one off each region and looks at first characters. The
proof follows it region by region. The blocks of some lines are aligned at zero in those lines, and what is aligned
inside a region is aligned in the lines around it, at a deeper indentation (`Block.AlignedAt.outward`).
-/

namespace LispDoc

namespace Block

/-! ### Parts of a tree -/

/-- The numbers of the lines of some blocks, at every depth. -/
def numbersOf (blocks : List Block) : List Nat := (entriesOf blocks).map Entry.number

/-- The numbers of the lines that stand directly in the sequence of a block: those of a paragraph, and the terms of a
definition list. -/
def memberLines : Block → List Nat
  | paragraph raw content origin => (paragraph raw content origin).entries.map Entry.number
  | definitionList items _ => items.map (·.origin.line)
  | blockQuote .. => []

/-- The sequences of blocks right inside a block, each with the line on which it starts. -/
def inner : Block → List (Nat × List Block)
  | paragraph .. => []
  | definitionList items _ => items.map fun item => (item.origin.line + 1, item.definition)
  | blockQuote children origin => [(origin.line, children)]

mutual
/-- The sequences of blocks inside a block, at every depth. -/
def sequences : Block → List (List Block)
  | paragraph .. => []
  | definitionList items _ => itemSequences items
  | blockQuote children _ => children :: sequencesOf children

def itemSequences : List DefinitionItem → List (List Block)
  | [] => []
  | .mk _ _ definition _ :: items => definition :: (sequencesOf definition ++ itemSequences items)

def sequencesOf : List Block → List (List Block)
  | [] => []
  | block :: blocks => block.sequences ++ sequencesOf blocks
end

/-- In lines where the sequence of the block is indented by `b`, its own lines are indented by `b`, and each sequence
inside it takes the lines from its start up to the next one indented by `b` at most, all of which are indented by
more. -/
structure AlignedAt (lines : List Line) (b : Nat) (block : Block) : Prop where
  members : ∀ n ∈ block.memberLines, Line.indentAt? lines n = some b
  starts : ∀ part ∈ block.inner, part.1 ∈ numbersOf part.2
  extent : ∀ part ∈ block.inner, numbersOf part.2 = Line.extent lines b part.1
  deeper : ∀ part ∈ block.inner, ∀ n ∈ numbersOf part.2, ∃ k, Line.indentAt? lines n = some k ∧ b < k

theorem mem_sequencesOf {blocks : List Block} {s : List Block} :
    s ∈ sequencesOf blocks ↔ ∃ block ∈ blocks, s ∈ block.sequences := by
  induction blocks with
  | nil => simp [sequencesOf]
  | cons block blocks ih => simp [sequencesOf, ih]

private theorem mem_itemSequences {items : List DefinitionItem} {s : List Block} :
    s ∈ itemSequences items ↔ ∃ item ∈ items, s = item.definition ∨ s ∈ sequencesOf item.definition := by
  induction items with
  | nil => simp [itemSequences]
  | cons item items ih =>
    obtain ⟨term, content, definition, origin⟩ := item
    simp [itemSequences, ih, DefinitionItem.definition, or_assoc]

/-- Sequences inside a block are right inside it, or inside such a one. -/
theorem mem_sequences {block : Block} {s : List Block} :
    s ∈ block.sequences ↔ ∃ part ∈ block.inner, s = part.2 ∨ s ∈ sequencesOf part.2 := by
  cases block with
  | paragraph raw content origin => simp [sequences, inner]
  | definitionList items origin => simp [sequences, inner, mem_itemSequences]
  | blockQuote children origin => simp [sequences, inner]

private theorem mem_numbers_itemEntries {items : List DefinitionItem} {n : Nat}
    (h : n ∈ (itemEntries items).map Entry.number) :
    ∃ item ∈ items, n = item.origin.line ∨ n ∈ numbersOf item.definition := by
  induction items with
  | nil => simp [itemEntries] at h
  | cons item items ih =>
    obtain ⟨term, content, definition, origin⟩ := item
    rw [itemEntries, List.map_cons, List.map_append, List.mem_cons, List.mem_append] at h
    rcases h with rfl | h | h
    · exact ⟨_, List.mem_cons_self, .inl rfl⟩
    · exact ⟨_, List.mem_cons_self, .inr h⟩
    · obtain ⟨item, hitem, h⟩ := ih h
      exact ⟨item, List.mem_cons_of_mem _ hitem, h⟩

/-- A line of a block stands directly in its sequence or in a sequence inside it. -/
private theorem mem_numbers_entries {block : Block} {n : Nat} (h : n ∈ block.entries.map Entry.number) :
    n ∈ block.memberLines ∨ ∃ part ∈ block.inner, n ∈ numbersOf part.2 := by
  cases block with
  | paragraph raw content origin => exact .inl h
  | definitionList items origin =>
    rw [entries] at h
    obtain ⟨item, hitem, rfl | h⟩ := mem_numbers_itemEntries h
    · exact .inl (List.mem_map.2 ⟨item, hitem, rfl⟩)
    · exact .inr ⟨_, List.mem_map.2 ⟨item, hitem, rfl⟩, h⟩
  | blockQuote children origin =>
    rw [entries] at h
    exact .inr ⟨(origin.line, children), by simp [inner], h⟩

private theorem mem_numbersOf {blocks : List Block} {n : Nat} (h : n ∈ numbersOf blocks) :
    ∃ block ∈ blocks, n ∈ block.entries.map Entry.number := by
  induction blocks with
  | nil => simp [numbersOf] at h
  | cons block blocks ih =>
    rw [numbersOf, entriesOf_cons, List.map_append, List.mem_append] at h
    rcases h with h | h
    · exact ⟨block, by simp, h⟩
    · obtain ⟨b, hb, h⟩ := ih h
      exact ⟨b, by simp [hb], h⟩

/-! ### Alignment -/

section

variable {text : List Char} {lines region : List Line} {n : Nat}

/-- What is aligned inside a region is aligned in the lines around it. -/
theorem AlignedAt.outward (hr : Segment.RegionFrom lines n region) (hrun : Line.Run text lines) :
    ∃ c, ∀ b block, AlignedAt region b block → AlignedAt lines (b + c) block := by
  obtain ⟨c, hextent, hindent⟩ := hr.shift hrun
  refine ⟨c, fun b block h => ⟨?_, h.starts, ?_, ?_⟩⟩
  · exact fun m hm => hindent m b (h.members m hm)
  · intro part hpart
    have hstart : part.1 ∈ Line.extent region b part.1 := h.extent part hpart ▸ h.starts part hpart
    rw [h.extent part hpart, hextent b part.1 (Line.mem_numbers_of_mem_extent hstart)]
  · intro part hpart m hm
    obtain ⟨k, hk, hlt⟩ := h.deeper part hpart m hm
    exact ⟨k + c, hindent m k hk, Nat.add_lt_add_right hlt c⟩

/-- A block of lines of text and of regions is aligned at zero. -/
private theorem alignedAt_zero {block : Block} (hrun : Line.Run text lines)
    (hmembers : ∀ n ∈ block.memberLines, ∃ line ∈ lines, line.number = n ∧ line.isText = true)
    (hinner : ∀ part ∈ block.inner, ∃ region, Segment.RegionFrom lines part.1 region ∧
      numbersOf part.2 = Line.numbers region) : block.AlignedAt lines 0 := by
  have hextent : ∀ part ∈ block.inner, numbersOf part.2 = Line.extent lines 0 part.1 := by
    intro part hpart
    obtain ⟨region, hr, hnumbers⟩ := hinner part hpart
    rw [hnumbers, hr.numbers hrun]
  refine ⟨?_, ?_, hextent, ?_⟩
  · intro n hn
    obtain ⟨line, hl, rfl, htext⟩ := hmembers n hn
    rw [Line.indentAt?_of_mem hrun.ordered hl (Line.isBlank_of_isText htext), Line.indent_of_isText htext]
  · intro part hpart
    obtain ⟨region, hr, hnumbers⟩ := hinner part hpart
    rw [hnumbers]
    exact hr.start_mem hrun
  · intro part hpart m hm
    rw [hextent part hpart] at hm
    obtain ⟨line, hl, rfl, hb, -, hdeep⟩ := Line.exists_mem_of_mem_extent hm
    exact ⟨line.indent, Line.indentAt?_of_mem hrun.ordered hl hb, hdeep⟩

end

end Block

namespace Docstring

open Block

variable {text : List Char} {source : Source} {lines : List Line}

private theorem numbersOf_of_covers {blocks : List Block} (h : Covers text source blocks (Line.contents lines)) :
    numbersOf blocks = Line.numbers lines := by
  rw [numbersOf, Line.numbers_eq]
  exact map_number h.shows

/-- The lines that stand directly in the sequence of a segment's block are lines of text. -/
private theorem isText_of_mem_memberLines (inline : List Char → List Inline) (nested : List Line → Parsed)
    (hrun : Line.Run text lines) {s : Segment} (hs : s.DrawnFrom lines) {block : Block}
    (hblock : block ∈ (ofSegment inline source s fun region _ => nested region).blocks) {n : Nat}
    (hn : n ∈ block.memberLines) : ∃ line ∈ lines, line.number = n ∧ line.isText = true := by
  cases s with
  | paragraph ls intruder =>
    obtain ⟨hpart, hne, htext⟩ := hs
    have hcovers : Covers text source _ (Line.contents ls) :=
      covers_paragraph (hrun.part hpart) hne htext (inline (rawText ls))
    rw [ofSegment, List.mem_singleton] at hblock
    have hnumbers : block.memberLines = Line.numbers ls := by
      rw [← numbersOf_of_covers hcovers, hblock, memberLines, numbersOf, entriesOf_cons, entriesOf_nil,
        List.append_nil]
    rw [hnumbers] at hn
    obtain ⟨line, hl, rfl⟩ := List.mem_map.1 hn
    have hl := (List.mem_filter.1 hl).1
    exact ⟨line, hpart.subset hl, rfl, htext line hl⟩
  | definitions items intruder =>
    rw [ofSegment_definitions, List.mem_singleton] at hblock
    rw [hblock, memberLines, List.map_map] at hn
    obtain ⟨item, hitem, rfl⟩ := List.mem_map.1 hn
    obtain ⟨hmem, htext, -⟩ := hs.2 item hitem
    exact ⟨item.1, hmem, rfl, htext⟩
  | quote first region =>
    rw [ofSegment, List.mem_singleton] at hblock
    simp [hblock, memberLines] at hn

/-- The sequences right inside a segment's block are what its regions hold. -/
theorem exists_region_of_mem_inner (inline : List Char → List Inline) (nested : List Line → Parsed) {s : Segment}
    (hs : s.StartsIn lines) {block : Block}
    (hblock : block ∈ (ofSegment inline source s fun region _ => nested region).blocks) {part : Nat × List Block}
    (hpart : part ∈ block.inner) :
    ∃ region ∈ s.regions, Segment.RegionFrom lines part.1 region ∧ part.2 = (nested region).blocks := by
  cases s with
  | paragraph ls intruder =>
    rw [ofSegment, List.mem_singleton] at hblock
    simp [hblock, Block.inner] at hpart
  | definitions items intruder =>
    rw [ofSegment_definitions, List.mem_singleton] at hblock
    rw [hblock, Block.inner, List.map_map] at hpart
    obtain ⟨item, hitem, rfl⟩ := List.mem_map.1 hpart
    exact ⟨item.2, List.mem_map.2 ⟨item, hitem, rfl⟩, hs item hitem, rfl⟩
  | quote first region =>
    rw [ofSegment, List.mem_singleton] at hblock
    rw [hblock, Block.inner, List.mem_singleton] at hpart
    rw [hpart]
    exact ⟨region, List.mem_singleton.2 rfl, hs, rfl⟩

theorem mem_blocks_ofLines {inline : List Char → List Inline} {block : Block}
    (h : block ∈ (ofLines inline source lines).blocks) :
    ∃ s ∈ Segment.cut lines, block ∈ (ofSegment inline source s fun region _ => ofLines inline source region).blocks := by
  rw [ofLines_eq, Parsed.join, List.flatMap_map] at h
  exact List.mem_flatMap.1 h

private theorem alignedAt_ofLines (inline : List Char → List Inline) (hrun : Line.Run text lines) {block : Block}
    (hblock : block ∈ (ofLines inline source lines).blocks) : block.AlignedAt lines 0 := by
  obtain ⟨s, hs, hblock⟩ := mem_blocks_ofLines hblock
  refine alignedAt_zero hrun ?_ ?_
  · exact fun n hn => isText_of_mem_memberLines inline _ hrun (Segment.drawnFrom_of_mem_cut hs) hblock hn
  · intro part hpart
    obtain ⟨region, -, hr, hpart⟩ :=
      exists_region_of_mem_inner inline _ (Segment.startsIn_of_mem_cut hrun.follow hs) hblock hpart
    refine ⟨region, hr, ?_⟩
    rw [hpart]
    exact numbersOf_of_covers (covers_ofLines inline source (hr.run hrun))

/-- Some line of a region keeps no indentation, and so stands directly in the sequence of the region's blocks: what is
further inside is indented more. -/
theorem exists_memberLines_ne_nil (inline : List Char → List Inline) {region : List Line} {n : Nat}
    (hr : Segment.RegionFrom lines n region) (hrun : Line.Run text lines) :
    ∃ block ∈ (ofLines inline source region).blocks, block.memberLines ≠ [] := by
  have hregion := hr.run hrun
  obtain ⟨line, hl, htext⟩ := hr.exists_isText hrun
  have hblank := Line.isBlank_of_isText htext
  have hmem : line.number ∈ Line.numbers region :=
    List.mem_map.2 ⟨line, List.mem_filter.2 ⟨hl, by simp [hblank]⟩, rfl⟩
  rw [← numbersOf_of_covers (covers_ofLines inline source hregion)] at hmem
  obtain ⟨block, hblock, hn⟩ := mem_numbersOf hmem
  refine ⟨block, hblock, ?_⟩
  rcases mem_numbers_entries hn with hmember | ⟨part, hpart, hinside⟩
  · exact List.ne_nil_of_mem hmember
  · obtain ⟨k, hk, hdeep⟩ := (alignedAt_ofLines inline hregion hblock).deeper part hpart _ hinside
    rw [Line.indentAt?_of_mem hregion.ordered hl hblank, Line.indent_of_isText htext, Option.some.injEq] at hk
    omega

/-- The sequences at any depth have lines of their own and are aligned at some indentation. -/
private theorem sequences_ofLines (inline : List Char → List Inline) (source : Source) (hrun : Line.Run text lines) :
    ∀ s ∈ sequencesOf (ofLines inline source lines).blocks,
      (∃ block ∈ s, block.memberLines ≠ []) ∧ ∃ b, ∀ block ∈ s, block.AlignedAt lines b := by
  induction lines using Segment.region_induction with
  | h lines ih =>
    intro s hs
    obtain ⟨block, hblock, hs⟩ := mem_sequencesOf.1 hs
    obtain ⟨segment, hsegment, hblock⟩ := mem_blocks_ofLines hblock
    obtain ⟨part, hpart, hs⟩ := mem_sequences.1 hs
    obtain ⟨region, hmem, hr, hblocks⟩ :=
      exists_region_of_mem_inner inline _ (Segment.startsIn_of_mem_cut hrun.follow hsegment) hblock hpart
    obtain ⟨c, houtward⟩ := AlignedAt.outward hr hrun
    rw [hblocks] at hs
    rcases hs with rfl | hs
    · refine ⟨exists_memberLines_ne_nil inline hr hrun, 0 + c, ?_⟩
      exact fun block hblock => houtward 0 block (alignedAt_ofLines inline (hr.run hrun) hblock)
    · obtain ⟨hmembers, b, haligned⟩ := ih segment hsegment region hmem (hr.run hrun) s hs
      exact ⟨hmembers, b + c, fun block hblock => houtward b block (haligned block hblock)⟩

/-- Nesting follows the indentation of the lines of a docstring. The outermost blocks are aligned at zero. Any sequence
inside has lines that stand directly in it, and its blocks are aligned at the one indentation that these lines share. -/
theorem alignedAt_parse (options : Options) (source : Source) (text : String) :
    (∀ block ∈ (parse options source text).blocks,
        block.AlignedAt (Line.split options.tabWidth text.toList) 0) ∧
      ∀ s ∈ sequencesOf (parse options source text).blocks,
        (∃ block ∈ s, block.memberLines ≠ []) ∧
          ∃ b, ∀ block ∈ s, block.AlignedAt (Line.split options.tabWidth text.toList) b := by
  have hrun := Line.run_split options.tabWidth text.toList
  exact ⟨fun block hblock => alignedAt_ofLines options.markup.nodes hrun hblock,
    sequences_ofLines options.markup.nodes source hrun⟩

end Docstring

end LispDoc
