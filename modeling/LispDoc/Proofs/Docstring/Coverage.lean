import LispDoc.Docstring.Parser
import LispDoc.Proofs.Docstring.Lines
import Mathlib.Data.List.Forall2

/-!
# A block tree holds the lines of its docstring

Walking a block tree in document order gives entries back (`Block.entriesOf`): the lines of paragraphs, numbered from
the origin of the paragraph on, and terms, each before its definition. The entries of a docstring are its lines that
are not blank, each once and in order, and every origin in the tree is where its first entry starts in the docstring.

The proof goes by induction on regions, with `Line.Run` as its invariant: the blocks of consecutive lines cover the
lines (`Docstring.covers_ofLines`).
-/

namespace LispDoc

/-! ### Entries of a tree -/

/-- A line as a block tree gives it back. -/
structure Entry where
  number : Nat
  text : List Char
  isTerm : Bool
  deriving DecidableEq, Repr

namespace Entry

/-- The lines of a paragraph that starts at a line. -/
def numbered (number : Nat) : List (List Char) → List Entry
  | [] => []
  | text :: texts => ⟨number, text, false⟩ :: numbered (number + 1) texts

/-- The entry is the line with this number and text; of a term the white space at both ends is gone. -/
def Shows (e : Entry) (line : Nat × List Char) : Prop :=
  e.number = line.1 ∧ e.text = if e.isTerm then Text.trim line.2 else line.2

end Entry

namespace Block

mutual
/-- The entries of a block. -/
def entries : Block → List Entry
  | paragraph raw _ origin => Entry.numbered origin.line (Text.splitAt '\n' raw.toList)
  | definitionList items _ => itemEntries items
  | blockQuote children _ => entriesOf children

/-- The entries of definition items: a term comes before its definition. -/
def itemEntries : List DefinitionItem → List Entry
  | [] => []
  | .mk term _ definition origin :: items =>
    ⟨origin.line, term.toList, true⟩ :: (entriesOf definition ++ itemEntries items)

def entriesOf : List Block → List Entry
  | [] => []
  | block :: blocks => block.entries ++ entriesOf blocks
end

mutual
/-- The origins in a block at every depth, each with the entries of what starts there. -/
def origins : Block → List (Origin × List Entry)
  | paragraph raw content origin => [(origin, (paragraph raw content origin).entries)]
  | definitionList items origin => (origin, itemEntries items) :: itemOrigins items
  | blockQuote children origin => (origin, entriesOf children) :: originsOf children

def itemOrigins : List DefinitionItem → List (Origin × List Entry)
  | [] => []
  | .mk term content definition origin :: items =>
    (origin, itemEntries [.mk term content definition origin]) :: (originsOf definition ++ itemOrigins items)

def originsOf : List Block → List (Origin × List Entry)
  | [] => []
  | block :: blocks => block.origins ++ originsOf blocks
end

@[simp] theorem entriesOf_nil : entriesOf [] = [] := by rw [entriesOf]

@[simp] theorem entriesOf_cons (block : Block) (blocks : List Block) :
    entriesOf (block :: blocks) = block.entries ++ entriesOf blocks := by rw [entriesOf]

@[simp] theorem originsOf_nil : originsOf [] = [] := by rw [originsOf]

@[simp] theorem originsOf_cons (block : Block) (blocks : List Block) :
    originsOf (block :: blocks) = block.origins ++ originsOf blocks := by rw [originsOf]

theorem entriesOf_append (as bs : List Block) : entriesOf (as ++ bs) = entriesOf as ++ entriesOf bs := by
  induction as with
  | nil => simp
  | cons a as ih => simp [ih]

theorem originsOf_append (as bs : List Block) : originsOf (as ++ bs) = originsOf as ++ originsOf bs := by
  induction as with
  | nil => simp
  | cons a as ih => simp [ih]

end Block

/-- The origin is the place in the text where the first of the entries starts. -/
structure Origin.Marks (text : List Char) (source : Source) (origin : Origin) (entries : List Entry) : Prop where
  line_eq : entries.head?.map Entry.number = some origin.line
  starts : StartsLine text origin.line origin.offset
  source_eq : origin.source = source

/-! ### Blocks that cover lines -/

namespace Docstring

/-- Blocks whose entries are the given lines, with every origin at the first entry of what it is the origin of. -/
structure Covers (text : List Char) (source : Source) (blocks : List Block) (lines : List (Nat × List Char)) :
    Prop where
  shows : List.Forall₂ Entry.Shows (Block.entriesOf blocks) lines
  origins : ∀ part ∈ Block.originsOf blocks, part.1.Marks text source part.2

variable {text : List Char} {source : Source}

theorem Covers.nil : Covers text source [] [] := ⟨by simp, by simp⟩

theorem Covers.append {as bs : List Block} {ks ls : List (Nat × List Char)} (ha : Covers text source as ks)
    (hb : Covers text source bs ls) : Covers text source (as ++ bs) (ks ++ ls) := by
  refine ⟨by rw [Block.entriesOf_append]; exact List.rel_append ha.shows hb.shows, ?_⟩
  intro part hpart
  rw [Block.originsOf_append, List.mem_append] at hpart
  rcases hpart with h | h
  · exact ha.origins part h
  · exact hb.origins part h

theorem Covers.flatMap {α : Type} {parts : List α} {blocks : α → List Block} {lines : α → List (Nat × List Char)}
    (h : ∀ part ∈ parts, Covers text source (blocks part) (lines part)) :
    Covers text source (parts.flatMap blocks) (parts.flatMap lines) := by
  induction parts with
  | nil => exact .nil
  | cons part parts ih =>
    rw [List.flatMap_cons, List.flatMap_cons]
    exact (h part (by simp)).append (ih fun p hp => h p (by simp [hp]))

private theorem head?_number {es : List Entry} {lines : List (Nat × List Char)}
    (h : List.Forall₂ Entry.Shows es lines) : es.head?.map Entry.number = lines.head?.map (·.1) := by
  cases h with
  | nil => rfl
  | cons hs _ => simp [hs.1]

theorem map_number {es : List Entry} {lines : List (Nat × List Char)} (h : List.Forall₂ Entry.Shows es lines) :
    es.map Entry.number = lines.map (·.1) := by
  rw [← List.forall₂_eq_eq_eq, List.forall₂_map_left_iff, List.forall₂_map_right_iff]
  exact h.imp fun _ _ hshow => hshow.1

/-! ### Paragraphs -/

/-- Lines of text that follow each other are shown by numbering their texts from the first. -/
private theorem shows_numbered {lines : List Line} {number : Nat}
    (hfollow : lines.IsChain fun a b => b.number = a.number + 1) (hhead : ∀ line ∈ lines.head?, line.number = number)
    (htext : ∀ line ∈ lines, line.isText = true) :
    List.Forall₂ Entry.Shows (Entry.numbered number (lines.map (·.text))) (Line.contents lines) := by
  induction lines generalizing number with
  | nil => exact .nil
  | cons line lines ih =>
    have ht := htext line (by simp)
    have hn : line.number = number := hhead line (by simp)
    rw [Line.contents_cons (Line.isBlank_of_isText ht), Line.body_of_isText ht]
    refine .cons ⟨hn.symm, rfl⟩ (ih hfollow.tail ?_ fun l hl => htext l (by simp [hl]))
    intro l hl
    rw [hfollow.rel_head? hl, hn]

/-- No line holds a newline, so that the raw text of a paragraph falls into the lines it was joined from. -/
theorem splitAt_rawText {lines : List Line} (hne : lines ≠ []) (h : ∀ line ∈ lines, '\n' ∉ line.text) :
    Text.splitAt '\n' (rawText lines) = lines.map (·.text) := by
  refine Text.splitAt_intercalate (by simpa using hne) fun piece hpiece => ?_
  obtain ⟨line, hl, rfl⟩ := List.mem_map.1 hpiece
  exact h line hl

theorem covers_paragraph {lines : List Line} (hrun : Line.Run text lines) (hne : lines ≠ [])
    (htext : ∀ line ∈ lines, line.isText = true) (content : List Inline) :
    Covers text source [.paragraph (String.ofList (rawText lines)) content (segmentOrigin source lines.head?)]
      (Line.contents lines) := by
  rcases lines with _ | ⟨first, more⟩
  · exact absurd rfl hne
  have hentries : ∀ origin, Block.entries (.paragraph (String.ofList (rawText (first :: more))) content origin) =
      Entry.numbered origin.line ((first :: more).map (·.text)) := by
    intro origin
    rw [Block.entries, String.toList_ofList, splitAt_rawText hne hrun.noBreak]
  constructor
  · rw [Block.entriesOf_cons, Block.entriesOf_nil, List.append_nil, hentries]
    exact shows_numbered hrun.follow (by simp [segmentOrigin, originOf]) htext
  · intro part hpart
    rw [Block.originsOf_cons, Block.originsOf_nil, List.append_nil, Block.origins, List.mem_singleton] at hpart
    rw [hpart, hentries]
    exact ⟨rfl, hrun.starts first (by simp), rfl⟩

/-! ### Definition lists -/

/-- An item shows its term and what its definition shows, and starts at the term. -/
private theorem covers_items (inline : List Char → List Inline) {items : List (Line × List Line)}
    {blocks : List Line → List Block}
    (hterm : ∀ item ∈ items, item.1.isText = true ∧ StartsLine text item.1.number item.1.offset)
    (hblocks : ∀ item ∈ items, Covers text source (blocks item.2) (Line.contents item.2)) :
    List.Forall₂ Entry.Shows
        (Block.itemEntries (items.map fun item => itemOf inline source item.1 (blocks item.2)))
        (items.flatMap fun item => Line.contents [item.1] ++ Line.contents item.2) ∧
      ∀ part ∈ Block.itemOrigins (items.map fun item => itemOf inline source item.1 (blocks item.2)),
        part.1.Marks text source part.2 := by
  induction items with
  | nil => simp [Block.itemEntries, Block.itemOrigins]
  | cons item items ih =>
    obtain ⟨ihs, iho⟩ := ih (fun i hi => hterm i (by simp [hi])) (fun i hi => hblocks i (by simp [hi]))
    obtain ⟨ht, hstart⟩ := hterm item (by simp)
    have hcov := hblocks item (by simp)
    constructor
    · rw [List.flatMap_cons, Line.contents_cons (Line.isBlank_of_isText ht), Line.contents_nil, List.cons_append,
        List.nil_append, List.cons_append, List.map_cons, itemOf, Block.itemEntries]
      refine .cons ⟨rfl, ?_⟩ (List.rel_append hcov.shows ihs)
      rw [Line.body_of_isText ht, String.toList_ofList]
      rfl
    · intro part hpart
      rw [List.map_cons, itemOf, Block.itemOrigins, List.mem_cons, List.mem_append] at hpart
      rcases hpart with rfl | h | h
      · exact ⟨by rw [Block.itemEntries]; rfl, hstart, rfl⟩
      · exact hcov.origins part h
      · exact iho part h

private theorem covers_definitionList (inline : List Char → List Inline) {items : List (Line × List Line)}
    (blocks : List Line → List Block) (hne : items ≠ [])
    (hterm : ∀ item ∈ items, item.1.isText = true ∧ StartsLine text item.1.number item.1.offset)
    (hblocks : ∀ item ∈ items, Covers text source (blocks item.2) (Line.contents item.2)) :
    Covers text source
      [.definitionList (items.map fun item => itemOf inline source item.1 (blocks item.2))
        (segmentOrigin source (items.head?.map (·.1)))]
      (items.flatMap fun item => Line.contents [item.1] ++ Line.contents item.2) := by
  obtain ⟨hs, ho⟩ := covers_items inline hterm hblocks
  rcases items with _ | ⟨item, items⟩
  · exact absurd rfl hne
  constructor
  · rwa [Block.entriesOf_cons, Block.entriesOf_nil, List.append_nil, Block.entries]
  · intro part hpart
    rw [Block.originsOf_cons, Block.originsOf_nil, List.append_nil, Block.origins, List.mem_cons] at hpart
    rcases hpart with rfl | h
    · exact ⟨by rw [List.map_cons, itemOf, Block.itemEntries]; rfl, (hterm item (by simp)).2, rfl⟩
    · exact ho part h

/-! ### Quotes -/

/-- A quote shows what its children show. They start with its first line, which is not blank. -/
private theorem covers_blockQuote {first : Line} {more : List Line} {blocks : List Block}
    (hfirst : first.isIndented = true) (hrun : Line.Run text (first :: more))
    (hblocks : Covers text source blocks (Line.contents (Line.dedent (first :: more)))) :
    Covers text source [.blockQuote blocks (originOf source first)]
      (Line.contents (Line.dedent (first :: more))) := by
  constructor
  · rw [Block.entriesOf_cons, Block.entriesOf_nil, List.append_nil, Block.entries]
    exact hblocks.shows
  · intro part hpart
    rw [Block.originsOf_cons, Block.originsOf_nil, List.append_nil, Block.origins, List.mem_cons] at hpart
    rcases hpart with rfl | h
    · refine ⟨?_, hrun.starts first (by simp), rfl⟩
      rw [head?_number hblocks.shows, Line.contents_dedent hrun.solid,
        Line.contents_cons (Line.isBlank_of_isIndented hfirst)]
      rfl
    · exact hblocks.origins part h

/-! ### Docstrings -/

theorem ofSegment_definitions (inline : List Char → List Inline) (items : List (Line × List Line))
    (intruder : Option Line) (nested : List Line → Parsed) :
    (ofSegment inline source (.definitions items intruder) fun region _ => nested region).blocks =
      [.definitionList (items.map fun item => itemOf inline source item.1 (nested item.2).blocks)
        (segmentOrigin source (items.head?.map (·.1)))] := by
  simp only [ofSegment, List.map_map, Function.comp_def]
  rw [List.attach_map_val (f := fun item : Line × List Line => itemOf inline source item.1 (nested item.2).blocks)]

/-- The block of a segment covers it if the blocks of its regions cover them. -/
theorem covers_ofSegment (inline : List Char → List Inline) {lines : List Line} (hrun : Line.Run text lines)
    {s : Segment} (hs : s.DrawnFrom lines) {nested : List Line → Parsed}
    (h : ∀ region ∈ s.regions, Line.Run text region →
      Covers text source (nested region).blocks (Line.contents region)) :
    Covers text source (ofSegment inline source s fun region _ => nested region).blocks s.contents := by
  cases s with
  | paragraph ls intruder =>
    obtain ⟨hpart, hne, htext⟩ := hs
    exact covers_paragraph (hrun.part hpart) hne htext _
  | definitions items intruder =>
    rw [ofSegment_definitions]
    refine covers_definitionList inline (fun region => (nested region).blocks) hs.1 ?_ ?_
    · intro item hitem
      obtain ⟨hmem, htext, -⟩ := hs.2 item hitem
      exact ⟨htext, hrun.starts item.1 hmem⟩
    · intro item hitem
      obtain ⟨-, -, first, -, more, hpart, heq⟩ := hs.2 item hitem
      refine h item.2 (List.mem_map.2 ⟨item, hitem, rfl⟩) ?_
      rw [heq]
      exact (hrun.part hpart).dedent
  | quote first region =>
    obtain ⟨hfirst, more, hpart, rfl⟩ := hs
    have hrun := hrun.part hpart
    exact covers_blockQuote hfirst hrun (h _ (List.mem_singleton.2 rfl) hrun.dedent)

/-- The blocks of consecutive lines cover them. -/
theorem covers_ofLines (inline : List Char → List Inline) (source : Source) {lines : List Line}
    (hrun : Line.Run text lines) : Covers text source (ofLines inline source lines).blocks (Line.contents lines) := by
  induction lines using Segment.region_induction with
  | h lines ih =>
    rw [ofLines_eq, Parsed.join, List.flatMap_map, ← Segment.flatMap_contents_cut hrun.solid]
    apply Covers.flatMap
    intro s hs
    exact covers_ofSegment inline hrun (Segment.drawnFrom_of_mem_cut hs) fun region hr hrun => ih s hs region hr hrun

end Docstring

end LispDoc
