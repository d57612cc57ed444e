import LispDoc.Proofs.Docstring.Coverage
import LispDoc.Proofs.Docstring.Intruders

/-!
# The warnings about a docstring

Which warnings a docstring gives can be read off its block tree. Walk the tree in document order and look at every block
together with its next sibling: if no blank line comes between, a definition list warns about whatever follows, and a
paragraph of several lines about a quote (`Block.intrusion?`). These are the warnings of the parser, each once and in
this order.

For the equation the parser and the walk are compared segment by segment (`Docstring.intrusion?_blockOf`) and region by
region. That the lines warned about increase is a fact about trees: siblings start in document order, each after its
predecessor (`Block.siblings_sublist`).
-/

namespace LispDoc

open Docstring (unexpectedIndent unexpectedUnindent)

/-! ### Siblings -/

namespace Block

mutual
/-- The blocks inside a block, each with its next sibling. -/
def siblings : Block → List (Block × Block)
  | paragraph .. => []
  | definitionList items _ => itemSiblings items
  | blockQuote children _ => siblingsOf children

def itemSiblings : List DefinitionItem → List (Block × Block)
  | [] => []
  | .mk _ _ definition _ :: items => siblingsOf definition ++ itemSiblings items

/-- The blocks at every depth, each with its next sibling, in document order. -/
def siblingsOf : List Block → List (Block × Block)
  | [] => []
  | block :: blocks => block.siblings ++ (blocks.head?.toList.map (block, ·) ++ siblingsOf blocks)
end

/-- The second block starts on the line after the last line of the first. -/
def Adjoins (block next : Block) : Prop := block.entries.getLast?.map (·.number + 1) = some next.origin.line

instance (block next : Block) : Decidable (block.Adjoins next) := inferInstanceAs (Decidable (_ = _))

/-- What is said of a block and its next sibling unless a blank line comes between. -/
def complaint? : Block → Block → Option String
  | definitionList .., _ => some "Definition list ends without a blank line; unexpected unindent."
  | paragraph raw content origin, blockQuote .. =>
    if 2 ≤ (paragraph raw content origin).entries.length then some "Unexpected indentation." else none
  | _, _ => none

/-- The warning about a block and its next sibling: a warning about the line of the source on which the second block
starts. -/
def intrusion? (source : Source) (block next : Block) : Option Diagnostic :=
  if block.Adjoins next then
    (block.complaint? next).map fun message =>
      { severity := .warning, message, location := some { source, line := some next.origin.line } }
  else none

/-- A warning is about the line on which the second block starts, right after the first. -/
theorem intrusion?_eq_some {source : Source} {block next : Block} {d : Diagnostic}
    (h : block.intrusion? source next = some d) :
    block.Adjoins next ∧ d.location = some { source, line := some next.origin.line } := by
  rw [intrusion?] at h
  split at h
  · obtain ⟨message, -, rfl⟩ := Option.map_eq_some_iff.1 h
    exact ⟨by assumption, rfl⟩
  · simp at h

end Block

/-! ### Segments and their blocks -/

namespace Docstring

open Block

variable {text : List Char} {source : Source}

/-- The block of a segment. -/
def blockOf (inline : List Char → List Inline) (source : Source) (nested : List Line → List Block) : Segment → Block
  | .paragraph lines _ =>
    .paragraph (String.ofList (rawText lines)) (inline (rawText lines)) (segmentOrigin source lines.head?)
  | .definitions items _ =>
    .definitionList (items.map fun item => itemOf inline source item.1 (nested item.2))
      (segmentOrigin source (items.head?.map (·.1)))
  | .quote first region => .blockQuote (nested region) (originOf source first)

/-- What is said of the intruder of a segment. -/
def messageOf : Segment → String
  | .definitions .. => unexpectedUnindent
  | _ => unexpectedIndent

private theorem blocks_ofSegment (inline : List Char → List Inline) (nested : List Line → Parsed) (s : Segment) :
    (ofSegment inline source s fun region _ => nested region).blocks =
      [blockOf inline source (fun region => (nested region).blocks) s] := by
  cases s with
  | paragraph lines intruder => rfl
  | definitions items intruder => exact ofSegment_definitions inline items intruder nested
  | quote first region => rfl

/-- Every segment becomes one block. -/
theorem blocks_ofLines (inline : List Char → List Inline) (source : Source) (lines : List Line) :
    (ofLines inline source lines).blocks =
      (Segment.cut lines).map (blockOf inline source fun region => (ofLines inline source region).blocks) := by
  rw [ofLines_eq, Parsed.join, List.flatMap_map]
  simp only [blocks_ofSegment]
  exact List.flatMap_pure_eq_map _ _

private theorem diagnostics_ofSegment (inline : List Char → List Inline) (nested : List Line → Parsed) (s : Segment) :
    (ofSegment inline source s fun region _ => nested region).diagnostics =
      s.regions.flatMap (fun region => (nested region).diagnostics) ++
        warnings source (messageOf s) s.intruder := by
  cases s with
  | paragraph lines intruder => rfl
  | definitions items intruder =>
    simp only [ofSegment, Segment.regions, List.flatMap_map, Segment.intruder, messageOf]
    congr 1
    rw [List.flatMap_def, List.flatMap_def,
      List.attach_map_val (f := fun item : Line × List Line => (nested item.2).diagnostics)]
  | quote first region => simp [ofSegment, Segment.regions, Segment.intruder, warnings]

/-- What is said inside a segment comes before what is said about its intruder. -/
theorem diagnostics_ofLines_cut (inline : List Char → List Inline) (source : Source) (lines : List Line) :
    (ofLines inline source lines).diagnostics = (Segment.cut lines).flatMap fun s =>
      s.regions.flatMap (fun region => (ofLines inline source region).diagnostics) ++
        warnings source (messageOf s) s.intruder := by
  rw [ofLines_eq]
  simp only [Parsed.join, List.flatMap_map, diagnostics_ofSegment]

variable {inline : List Char → List Inline} {nested : List Line → List Block}

private theorem origin_blockOf (s : Segment) :
    (blockOf inline source nested s).origin = segmentOrigin source s.first? := by
  cases s <;> rfl

private theorem siblings_blockOf (s : Segment) :
    (blockOf inline source nested s).siblings = s.regions.flatMap fun region => siblingsOf (nested region) := by
  cases s with
  | paragraph lines intruder => simp [blockOf, siblings, Segment.regions]
  | definitions items intruder =>
    simp only [blockOf, siblings, Segment.regions]
    induction items with
    | nil => simp [itemSiblings]
    | cons item items ih => rw [List.map_cons, List.map_cons, List.flatMap_cons, itemOf, itemSiblings, ih]
  | quote first region => simp [blockOf, siblings, Segment.regions]

/-! ### Warnings segment by segment -/

private theorem exists_first? {lines : List Line} {s : Segment} (hs : s.DrawnFrom lines) :
    ∃ line, s.first? = some line := by
  cases s with
  | paragraph ls intruder => exact ⟨_, List.head?_eq_some_head hs.2.1⟩
  | definitions items intruder => exact ⟨_, by rw [Segment.first?, List.head?_eq_some_head hs.1]; rfl⟩
  | quote first region => exact ⟨first, rfl⟩

private theorem run_of_mem_regions {lines : List Line} (hrun : Line.Run text lines) {s : Segment}
    (hs : s.DrawnFrom lines) {region : List Line} (hr : region ∈ s.regions) : Line.Run text region := by
  have hregion : ∀ {first : Line}, Segment.RegionAt lines first region → Line.Run text region := by
    rintro first ⟨-, more, hpart, rfl⟩
    exact (hrun.part hpart).dedent
  cases s with
  | paragraph ls intruder => simp [Segment.regions] at hr
  | definitions items intruder =>
    obtain ⟨item, hitem, rfl⟩ := List.mem_map.1 hr
    obtain ⟨-, -, first, hat⟩ := hs.2 item hitem
    exact hregion hat
  | quote first lines =>
    rw [Segment.regions, List.mem_singleton] at hr
    exact hregion (hr ▸ hs)

private theorem adjoins_iff_follows {block next : Block} {contents : List (Nat × List Char)} {line : Line}
    (h : List.Forall₂ Entry.Shows block.entries contents) (hnext : next.origin.line = line.number) :
    block.Adjoins next ↔ Segment.follows contents line = true := by
  have hlast : block.entries.getLast?.map (·.number + 1) = contents.getLast?.map (·.1 + 1) := by
    have := congrArg (fun numbers => numbers.getLast?.map (· + 1)) (map_number h)
    simpa [List.getLast?_map, Function.comp_def] using this
  rw [Adjoins, hlast, hnext, Segment.follows, Option.any_eq_true, Option.map_eq_some_iff]
  simp

/-- The blocks of two segments should be kept apart if the segments should. -/
private theorem complaint?_blockOf {lines : List Line} {s : Segment} (hs : s.DrawnFrom lines)
    (hshows : List.Forall₂ Entry.Shows (blockOf inline source nested s).entries s.contents) (t : Segment) :
    (blockOf inline source nested s).complaint? (blockOf inline source nested t) =
      if s.keepsApart t then some (messageOf s) else none := by
  cases s with
  | paragraph ls intruder =>
    cases t with
    | paragraph => rfl
    | definitions => rfl
    | quote first region =>
      -- a paragraph holds no blank lines, so it has an entry for each of its lines
      have hall : ls.filter (!·.isBlank) = ls :=
        List.filter_eq_self.2 fun l hl => by simp [Line.isBlank_of_isText (hs.2.2 l hl)]
      have hlength : (blockOf inline source nested (.paragraph ls intruder)).entries.length = ls.length := by
        rw [hshows.length_eq, Segment.contents, Line.contents, hall, List.length_map]
      simp only [Segment.keepsApart, messageOf, decide_eq_true_eq, ← hlength]
      rfl
  | definitions items intruder => rfl
  | quote first region => rfl

/-- The block of a segment warns about the block of another as the segments tell. -/
theorem intrusion?_blockOf {lines : List Line} {s t : Segment} (hs : s.DrawnFrom lines) (ht : t.DrawnFrom lines)
    (hshows : List.Forall₂ Entry.Shows (blockOf inline source nested s).entries s.contents) :
    ((blockOf inline source nested s).intrusion? source (blockOf inline source nested t)).toList =
      warnings source (messageOf s) (if s.runsInto t then t.first? else none) := by
  obtain ⟨line, hline⟩ := exists_first? ht
  have horigin : (blockOf inline source nested t).origin.line = line.number := by
    rw [origin_blockOf, hline]
    rfl
  rw [intrusion?, complaint?_blockOf hs hshows, horigin, Segment.runsInto, hline, Option.any_some]
  simp only [adjoins_iff_follows hshows horigin]
  cases Segment.follows s.contents line <;> cases s.keepsApart t <;> rfl

/-- The diagnostics of segments at the end of some lines, if those of the regions are known. -/
private theorem diagnostics_segments {lines : List Line} (hrun : Line.Run text lines) {nested : List Line → Parsed}
    (hcovers : ∀ s ∈ Segment.cut lines,
      Covers text source (ofSegment inline source s fun region _ => nested region).blocks s.contents)
    (hnested : ∀ s ∈ Segment.cut lines, ∀ region ∈ s.regions, (nested region).diagnostics =
      (siblingsOf (nested region).blocks).filterMap fun p => p.1.intrusion? source p.2)
    {segments : List Segment} (h : segments <:+ Segment.cut lines) :
    (segments.flatMap fun s => (ofSegment inline source s fun region _ => nested region).diagnostics) =
      (siblingsOf (segments.map (blockOf inline source fun region => (nested region).blocks))).filterMap
        fun p => p.1.intrusion? source p.2 := by
  induction segments with
  | nil => simp [siblingsOf]
  | cons s rest ih =>
    have hs : s ∈ Segment.cut lines := h.subset (by simp)
    have hshows := (hcovers s hs).shows
    rw [blocks_ofSegment, entriesOf_cons, entriesOf_nil, List.append_nil] at hshows
    -- what the regions say comes from inside the block, the intruder from the block and the next one
    have hinside : (s.regions.flatMap fun region => (nested region).diagnostics) =
        (blockOf inline source (fun region => (nested region).blocks) s).siblings.filterMap
          fun p => p.1.intrusion? source p.2 := by
      rw [siblings_blockOf, List.filterMap_flatMap]
      exact List.flatMap_congr fun region hregion => hnested s hs region hregion
    have hnext : warnings source (messageOf s) s.intruder =
        ((rest.map (blockOf inline source fun region => (nested region).blocks)).head?.toList.map
          (blockOf inline source (fun region => (nested region).blocks) s, ·)).filterMap
            fun p => p.1.intrusion? source p.2 := by
      rw [Segment.intruder_eq hrun h]
      cases rest with
      | nil => rfl
      | cons t rest =>
        have ht : t ∈ Segment.cut lines := h.subset (by simp)
        have hpair := intrusion?_blockOf (Segment.drawnFrom_of_mem_cut hs) (Segment.drawnFrom_of_mem_cut ht) hshows
        rw [List.head?_cons, Option.bind_some, ← hpair]
        simp [List.filterMap_eq_flatMap_toList]
    rw [List.flatMap_cons, List.map_cons, siblingsOf, List.filterMap_append, List.filterMap_append, diagnostics_ofSegment,
      hinside, hnext, ih ((List.suffix_cons _ _).trans h), List.append_assoc]

private theorem diagnostics_ofLines (inline : List Char → List Inline) (source : Source) {lines : List Line}
    (hrun : Line.Run text lines) :
    (ofLines inline source lines).diagnostics =
      (siblingsOf (ofLines inline source lines).blocks).filterMap fun p => p.1.intrusion? source p.2 := by
  induction lines using Segment.region_induction with
  | h lines ih =>
    have hdrawn : ∀ s ∈ Segment.cut lines, s.DrawnFrom lines := fun s hs => Segment.drawnFrom_of_mem_cut hs
    have hsegments := diagnostics_segments hrun
      (fun s hs => covers_ofSegment inline hrun (hdrawn s hs) fun region _ hregion => covers_ofLines inline source hregion)
      (fun s hs region hr => ih s hs region hr (run_of_mem_regions hrun (hdrawn s hs) hr)) List.suffix_rfl
    rw [blocks_ofLines, ← hsegments, ofLines_eq]
    exact List.flatMap_map ..

end Docstring

/-! ### The order of siblings -/

namespace Block

private theorem origin_mem_origins (block : Block) : (block.origin, block.entries) ∈ block.origins := by
  cases block <;> simp [origin, origins, entries]

mutual
/-- The lines on which siblings inside a block start come in order, after the first line of the block. -/
theorem siblings_sublist (block : Block)
    (h : ∀ part ∈ block.origins, part.2.head?.map Entry.number = some part.1.line) :
    (block.siblings.map (·.2.origin.line)).Sublist (block.entries.map Entry.number).tail := by
  cases block with
  | paragraph raw content origin => simp [siblings]
  | definitionList items origin =>
    rw [siblings, entries]
    exact itemSiblings_sublist items fun part hpart => h part (by rw [origins]; exact List.mem_cons_of_mem _ hpart)
  | blockQuote children origin =>
    rw [siblings, entries]
    exact siblingsOf_sublist children fun part hpart => h part (by rw [origins]; exact List.mem_cons_of_mem _ hpart)

private theorem itemSiblings_sublist (items : List DefinitionItem)
    (h : ∀ part ∈ itemOrigins items, part.2.head?.map Entry.number = some part.1.line) :
    ((itemSiblings items).map (·.2.origin.line)).Sublist ((itemEntries items).map Entry.number).tail := by
  cases items with
  | nil => simp [itemSiblings]
  | cons item items =>
    obtain ⟨term, content, definition, origin⟩ := item
    simp only [itemOrigins, List.mem_cons, List.mem_append] at h
    have hdefinition := siblingsOf_sublist definition fun part hpart => h part (.inr (.inl hpart))
    have hitems := itemSiblings_sublist items fun part hpart => h part (.inr (.inr hpart))
    rw [itemSiblings, itemEntries, List.map_append, List.map_cons, List.tail_cons, List.map_append]
    exact (hdefinition.trans (List.tail_sublist _)).append (hitems.trans (List.tail_sublist _))

private theorem siblingsOf_sublist (blocks : List Block)
    (h : ∀ part ∈ originsOf blocks, part.2.head?.map Entry.number = some part.1.line) :
    ((siblingsOf blocks).map (·.2.origin.line)).Sublist ((entriesOf blocks).map Entry.number).tail := by
  cases blocks with
  | nil => simp [siblingsOf]
  | cons block blocks =>
    simp only [originsOf_cons, List.mem_append] at h
    have hblock := siblings_sublist block fun part hpart => h part (.inl hpart)
    have hblocks := siblingsOf_sublist blocks fun part hpart => h part (.inr hpart)
    have hne : block.entries.map Entry.number ≠ [] := by
      intro hnil
      have hhead := h _ (.inl (origin_mem_origins block))
      rw [← List.head?_map, hnil] at hhead
      simp at hhead
    rw [siblingsOf, List.map_append, List.map_append, entriesOf_cons, List.map_append, List.tail_append_of_ne_nil hne]
    refine hblock.append ?_
    cases blocks with
    | nil => simpa using hblocks
    | cons next blocks =>
      -- the next block starts with the first entry behind, and later siblings start after it
      have hhead := h _ (.inr (by rw [originsOf_cons]; exact List.mem_append_left _ (origin_mem_origins next)))
      obtain ⟨later, hlater⟩ : ∃ later, (entriesOf (next :: blocks)).map Entry.number = next.origin.line :: later := by
        apply List.head?_eq_some_iff.1
        rw [entriesOf_cons, List.map_append, List.head?_append, List.head?_map, hhead, Option.some_or]
      rw [hlater] at hblocks ⊢
      exact hblocks.cons_cons _
end

mutual
/-- The entries of siblings are entries of the block that they are in. -/
private theorem entries_subset_of_siblings {p : Block × Block} (block : Block) (h : p ∈ block.siblings) :
    p.1.entries ⊆ block.entries := by
  cases block with
  | paragraph raw content origin => simp [siblings] at h
  | definitionList items origin =>
    rw [siblings] at h
    rw [entries]
    exact entries_subset_of_itemSiblings items h
  | blockQuote children origin =>
    rw [siblings] at h
    rw [entries]
    exact entries_subset_of_siblingsOf children h

private theorem entries_subset_of_itemSiblings {p : Block × Block} (items : List DefinitionItem)
    (h : p ∈ itemSiblings items) :
    p.1.entries ⊆ itemEntries items := by
  cases items with
  | nil => simp [itemSiblings] at h
  | cons item items =>
    obtain ⟨term, content, definition, origin⟩ := item
    rw [itemSiblings, List.mem_append] at h
    rw [itemEntries]
    refine List.subset_cons_of_subset _ ?_
    rcases h with h | h
    · exact List.subset_append_of_subset_left _ (entries_subset_of_siblingsOf definition h)
    · exact List.subset_append_of_subset_right _ (entries_subset_of_itemSiblings items h)

private theorem entries_subset_of_siblingsOf {p : Block × Block} (blocks : List Block) (h : p ∈ siblingsOf blocks) :
    p.1.entries ⊆ entriesOf blocks := by
  cases blocks with
  | nil => simp [siblingsOf] at h
  | cons block blocks =>
    rw [siblingsOf, List.mem_append, List.mem_append] at h
    rw [entriesOf_cons]
    rcases h with h | h | h
    · exact List.subset_append_of_subset_left _ (entries_subset_of_siblings block h)
    · obtain ⟨next, -, rfl⟩ := List.mem_map.1 h
      exact List.subset_append_of_subset_left _ (List.Subset.refl _)
    · exact List.subset_append_of_subset_right _ (entries_subset_of_siblingsOf blocks h)
end

/-- The lines that pairs of blocks are warned about. -/
def warnedLines (source : Source) (pairs : List (Block × Block)) : List Nat :=
  (pairs.filter fun p => (p.1.intrusion? source p.2).isSome).map (·.2.origin.line)

private theorem locations_filterMap_intrusion? (source : Source) (pairs : List (Block × Block)) :
    (pairs.filterMap fun p => p.1.intrusion? source p.2).map (·.location) =
      (warnedLines source pairs).map fun n => some { source, line := some n } := by
  rw [warnedLines]
  induction pairs with
  | nil => rfl
  | cons p pairs ih =>
    cases hp : p.1.intrusion? source p.2 with
    | none => simpa [hp] using ih
    | some d => simpa [hp, (intrusion?_eq_some hp).2] using ih

end Block

namespace Docstring

open Block

private theorem pairwise_number_contents {text : List Char} {lines : List Line} (hrun : Line.Run text lines) :
    ((Line.contents lines).map (·.1)).Pairwise (· < ·) := by
  rw [Line.contents, List.map_map]
  exact List.pairwise_map.2 (hrun.ordered.sublist List.filter_sublist)

/-- The diagnostics of a docstring are the warnings about the siblings in its block tree, in document order. The lines
they are about increase strictly, and the line before each of them is not blank. -/
theorem diagnostics_parse (options : Options) (source : Source) (text : String) :
    (parse options source text).diagnostics =
        (siblingsOf (parse options source text).blocks).filterMap (fun p => p.1.intrusion? source p.2) ∧
      ∃ numbers : List Nat,
        (parse options source text).diagnostics.map (·.location) =
            numbers.map (fun n => some { source, line := some n }) ∧
          numbers.Pairwise (· < ·) ∧
          ∀ n ∈ numbers, ∃ line ∈ Line.split options.tabWidth text.toList,
            line.isBlank = false ∧ line.number + 1 = n := by
  have hrun := Line.run_split options.tabWidth text.toList
  have hcovers := covers_ofLines options.markup.nodes source hrun
  have hdiagnostics := diagnostics_ofLines options.markup.nodes source hrun
  refine ⟨hdiagnostics, warnedLines source (siblingsOf (parse options source text).blocks), ?_, ?_, ?_⟩
  · rw [← locations_filterMap_intrusion?]
    exact congrArg _ hdiagnostics
  · -- siblings start in document order, and the lines of the tree are those of the text
    have hsublist := siblingsOf_sublist _ fun part hpart => (hcovers.origins part hpart).line_eq
    rw [map_number hcovers.shows] at hsublist
    have hordered := (pairwise_number_contents hrun).sublist (hsublist.trans (List.tail_sublist _))
    exact hordered.sublist (List.filter_sublist.map _)
  · intro n hn
    obtain ⟨p, hp, rfl⟩ := List.mem_map.1 hn
    obtain ⟨hp, hsome⟩ := List.mem_filter.1 hp
    obtain ⟨d, hd⟩ := Option.isSome_iff_exists.1 hsome
    obtain ⟨entry, hlast, hnext⟩ := Option.map_eq_some_iff.1 (intrusion?_eq_some hd).1
    have hentry := entries_subset_of_siblingsOf _ hp (List.mem_of_getLast? hlast)
    have hnumber : entry.number ∈ (Line.contents (Line.split options.tabWidth text.toList)).map (·.1) := by
      rw [← map_number hcovers.shows]
      exact List.mem_map.2 ⟨entry, hentry, rfl⟩
    obtain ⟨content, hcontent, heq⟩ := List.mem_map.1 hnumber
    obtain ⟨line, hl, hb, rfl⟩ := Segment.mem_contents hcontent
    exact ⟨line, hl, hb, by rw [← hnext, ← heq]⟩

/-- A quote right behind a paragraph of two lines and a text right behind a definition are warned about. The last quote
is not, because a blank line comes in front of it. -/
theorem diagnostics_parse_intruders :
    (siblingsOf (parse {} ⟨some "pen.el", some "draw"⟩
        "Draw it\nslowly:\n  with ink\n\nsize\n\tThe width.\nof it\nall\n\n  or chalk").blocks).filterMap
          (fun p => p.1.intrusion? ⟨some "pen.el", some "draw"⟩ p.2) =
        (parse {} ⟨some "pen.el", some "draw"⟩
          "Draw it\nslowly:\n  with ink\n\nsize\n\tThe width.\nof it\nall\n\n  or chalk").diagnostics ∧
      (parse {} ⟨some "pen.el", some "draw"⟩
          "Draw it\nslowly:\n  with ink\n\nsize\n\tThe width.\nof it\nall\n\n  or chalk").diagnostics =
        [⟨.warning, "Unexpected indentation.", some ⟨⟨some "pen.el", some "draw"⟩, some 3⟩⟩,
          ⟨.warning, "Definition list ends without a blank line; unexpected unindent.",
            some ⟨⟨some "pen.el", some "draw"⟩, some 7⟩⟩] :=
  ⟨(diagnostics_parse _ _ _).1.symm, by decide +kernel⟩

end Docstring

end LispDoc
