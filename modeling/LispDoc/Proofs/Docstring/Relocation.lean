import LispDoc.Proofs.Docstring.Warnings

/-!
# Docstrings elsewhere

The parser copies the numbers and offsets of lines into origins and diagnostics and never looks at them. So lines that
stand elsewhere, with numbers changed by one function and offsets by another, give the same blocks and the same
diagnostics, moved alike (`Docstring.ofLines_map_move`).

Regions, runs of definitions and segments are moved with their lines; from there the blocks follow by induction on
regions.
-/

namespace LispDoc

/-! ### Lines -/

namespace Line

/-- The line with its number and offset changed. -/
def move (f g : Nat → Nat) (line : Line) : Line := ⟨f line.number, g line.offset, line.text⟩

variable (f g : Nat → Nat)

@[simp] theorem isIndented_move (line : Line) : (line.move f g).isIndented = line.isIndented := rfl

private theorem commonIndent_map_move (lines : List Line) :
    commonIndent (lines.map (move f g)) = commonIndent lines := by
  have hkeep : ((fun line : Line => !line.isBlank) ∘ move f g) = fun line => !line.isBlank := rfl
  have hindent : indent ∘ move f g = indent := rfl
  rw [commonIndent, commonIndent, List.filter_map, hkeep, List.map_map, hindent]

private theorem dedent_map_move (lines : List Line) :
    dedent (lines.map (move f g)) = (dedent lines).map (move f g) := by
  rw [dedent, dedent, commonIndent_map_move, List.map_map, List.map_map]
  rfl

end Line

/-! ### Regions and segments -/

section

variable (f g : Nat → Nat)

/-- The region with its lines moved. -/
def Region.move (region : Region) : Region :=
  ⟨region.lines.map (Line.move f g), region.blankFinish, region.rest.map (Line.move f g)⟩

private theorem takeWhile_map_move {p : Line → Bool} (hp : ∀ line : Line, p (line.move f g) = p line)
    (lines : List Line) :
    (lines.map (Line.move f g)).takeWhile p = (lines.takeWhile p).map (Line.move f g) := by
  rw [List.takeWhile_map]
  congr 2
  funext line
  exact hp line

private theorem dropWhile_map_move {p : Line → Bool} (hp : ∀ line : Line, p (line.move f g) = p line)
    (lines : List Line) :
    (lines.map (Line.move f g)).dropWhile p = (lines.dropWhile p).map (Line.move f g) := by
  rw [List.dropWhile_map]
  congr 2
  funext line
  exact hp line

private theorem any_head?_map_move {p : Line → Bool} (hp : ∀ line : Line, p (line.move f g) = p line)
    (lines : List Line) :
    (lines.map (Line.move f g)).head?.any p = lines.head?.any p := by
  cases lines with
  | nil => rfl
  | cons line lines => exact hp line

theorem Region.dropTrailingBlank_map_move (lines : List Line) :
    dropTrailingBlank (lines.map (Line.move f g)) = (dropTrailingBlank lines).map (Line.move f g) := by
  rw [dropTrailingBlank, ← List.map_reverse, dropWhile_map_move f g fun _ => rfl, ← List.map_reverse]
  rfl

theorem Region.read_map_move (lines : List Line) : read (lines.map (Line.move f g)) = (read lines).move f g := by
  have hlast : ∀ taken : List Line, (taken.map (Line.move f g)).getLast?.any Line.isBlank =
      taken.getLast?.any Line.isBlank := by
    intro taken
    rw [List.getLast?_map, Option.any_map]
    rfl
  simp only [read, move, takeWhile_map_move f g (p := fun line => !line.isText) fun _ => rfl,
    dropWhile_map_move f g (p := fun line => !line.isText) fun _ => rfl, dropTrailingBlank_map_move,
    Line.dedent_map_move, hlast, List.isEmpty_map]

end

namespace Segment

variable (f g : Nat → Nat)

def moveItem (item : Line × List Line) : Line × List Line := (item.1.move f g, item.2.map (Line.move f g))

/-- The segment with its lines moved. -/
def move : Segment → Segment
  | paragraph lines intruder => paragraph (lines.map (Line.move f g)) (intruder.map (Line.move f g))
  | definitions items intruder => definitions (items.map (moveItem f g)) (intruder.map (Line.move f g))
  | quote first lines => quote (first.move f g) (lines.map (Line.move f g))

private theorem definitionRun_map_move (finish : Bool) (lines : List Line) :
    definitionRun finish (lines.map (Line.move f g)) =
      ((definitionRun finish lines).1.map (moveItem f g), (definitionRun finish lines).2.1,
        (definitionRun finish lines).2.2.map (Line.move f g)) := by
  induction finish, lines using run_induction with
  | item finish term next rest hc ih =>
    have hread : Region.read (next.move f g :: rest.map (Line.move f g)) = (Region.read (next :: rest)).move f g :=
      Region.read_map_move f g (next :: rest)
    have hmoved : ((term.move f g).isText && (next.move f g).isIndented) = true := hc
    rw [List.map_cons, List.map_cons, definitionRun_of_item hmoved, definitionRun_of_item hc, hread]
    simp only [Region.move, ih]
    rfl
  | stop finish lines h =>
    have hmoved : startsItem (lines.map (Line.move f g)) = false := by
      rw [startsItem, ← List.map_tail, any_head?_map_move f g fun _ => rfl, any_head?_map_move f g fun _ => rfl]
      exact h
    rw [definitionRun_of_not_startsItem hmoved, definitionRun_of_not_startsItem h]
    rfl

private theorem cut_map_move (lines : List Line) : cut (lines.map (Line.move f g)) = (cut lines).map (move f g) := by
  induction lines using cut_induction with
  | nil => rw [List.map_nil, cut_nil, List.map_nil]
  | blank line rest hblank ih =>
    have hmoved : (line.move f g).isBlank = true := hblank
    rw [List.map_cons, cut_of_isBlank hmoved, cut_of_isBlank hblank, ih]
  | indented line rest hindented ih =>
    have hmoved : (line.move f g).isIndented = true := hindented
    have hread : Region.read (line.move f g :: rest.map (Line.move f g)) = (Region.read (line :: rest)).move f g :=
      Region.read_map_move f g (line :: rest)
    rw [List.map_cons, cut_of_isIndented hmoved, cut_of_isIndented hindented, hread, Region.move, ih]
    rfl
  | term line rest htext hi ih =>
    have hmoved : (line.move f g).isText = true := htext
    have hnext : (rest.map (Line.move f g)).head?.any Line.isIndented = true := by
      rw [any_head?_map_move f g fun _ => rfl, hi]
    rw [List.map_cons, cut_of_term hmoved hnext, cut_of_term htext hi, Region.read_map_move]
    simp only [Region.move, definitionRun_map_move]
    rw [ih, List.map_cons, move, List.map_cons, List.head?_map]
    congr 2
    cases (definitionRun (Region.read rest).blankFinish (Region.read rest).rest).2.1 <;> rfl
  | text line rest htext hi ih =>
    have hmoved : (line.move f g).isText = true := htext
    have hnext : (rest.map (Line.move f g)).head?.any Line.isIndented = false := by
      rw [any_head?_map_move f g fun _ => rfl, hi]
    rw [List.map_cons, cut_of_isText hmoved hnext, cut_of_isText htext hi, takeWhile_map_move f g fun _ => rfl,
      dropWhile_map_move f g fun _ => rfl, any_head?_map_move f g fun _ => rfl, ih, List.map_cons, move, List.head?_map]
    congr 2
    split
    · cases (rest.dropWhile Line.isText).head? with
      | none => rfl
      | some next => cases hn : next.isIndented <;> simp [Option.filter, hn]
    · rfl

private theorem regions_move (s : Segment) : (s.move f g).regions = s.regions.map (List.map (Line.move f g)) := by
  cases s with
  | paragraph lines intruder => rfl
  | definitions items intruder => simp [move, regions, moveItem]
  | quote first lines => rfl

private theorem intruder_move (s : Segment) : (s.move f g).intruder = s.intruder.map (Line.move f g) := by
  cases s <;> rfl

end Segment

/-! ### Blocks and diagnostics -/

/-- The origin with its line and offset changed. -/
def Origin.move (f g : Nat → Nat) (origin : Origin) : Origin := ⟨f origin.line, g origin.offset, origin.source⟩

namespace Block

mutual
/-- The block with the origins at every depth changed. -/
def move (f g : Nat → Nat) : Block → Block
  | paragraph raw content origin => paragraph raw content (origin.move f g)
  | definitionList items origin => definitionList (moveItems f g items) (origin.move f g)
  | blockQuote children origin => blockQuote (moveAll f g children) (origin.move f g)

def moveItems (f g : Nat → Nat) : List DefinitionItem → List DefinitionItem
  | [] => []
  | .mk term content definition origin :: items =>
    .mk term content (moveAll f g definition) (origin.move f g) :: moveItems f g items

def moveAll (f g : Nat → Nat) : List Block → List Block
  | [] => []
  | block :: blocks => block.move f g :: moveAll f g blocks
end

theorem moveAll_eq_map (f g : Nat → Nat) (blocks : List Block) : moveAll f g blocks = blocks.map (move f g) := by
  induction blocks with
  | nil => rw [moveAll]; rfl
  | cons block blocks ih => rw [moveAll, ih]; rfl

end Block

/-- The diagnostic about another line. -/
def Diagnostic.move (f : Nat → Nat) (d : Diagnostic) : Diagnostic :=
  { d with location := d.location.map fun location => { location with line := location.line.map f } }

namespace Docstring

/-- The blocks with their origins changed, and the diagnostics with their lines. -/
def Parsed.move (f g : Nat → Nat) (parsed : Parsed) : Parsed :=
  ⟨Block.moveAll f g parsed.blocks, parsed.diagnostics.map (Diagnostic.move f)⟩

variable (f g : Nat → Nat) (inline : List Char → List Inline) (source : Source)

private theorem rawText_map_move (lines : List Line) : rawText (lines.map (Line.move f g)) = rawText lines := by
  rw [rawText, rawText, List.map_map]
  rfl

private theorem warnings_move (message : String) (line : Option Line) :
    warnings source message (line.map (Line.move f g)) = (warnings source message line).map (Diagnostic.move f) := by
  cases line <;> rfl

private theorem map_itemOf_moveItem {nested : List Line → List Block} {items : List (Line × List Line)}
    (h : ∀ item ∈ items, nested (item.2.map (Line.move f g)) = Block.moveAll f g (nested item.2)) :
    (items.map (Segment.moveItem f g)).map (fun item => itemOf inline source item.1 (nested item.2)) =
      Block.moveItems f g (items.map fun item => itemOf inline source item.1 (nested item.2)) := by
  induction items with
  | nil => simp [Block.moveItems]
  | cons item items ih =>
    have hitem := h item (by simp)
    rw [List.map_cons, List.map_cons, List.map_cons, ih fun i hi => h i (by simp [hi]), itemOf, itemOf,
      Block.moveItems, ← hitem]
    rfl

/-- A segment starts somewhere, so its block is moved to where its first line is moved. -/
private theorem blockOf_move {lines : List Line} {s : Segment} (hs : s.DrawnFrom lines)
    {nested : List Line → List Block}
    (hnested : ∀ region ∈ s.regions, nested (region.map (Line.move f g)) = Block.moveAll f g (nested region)) :
    blockOf inline source nested (s.move f g) = (blockOf inline source nested s).move f g := by
  cases s with
  | paragraph ls intruder =>
    rcases ls with _ | ⟨first, more⟩
    · exact absurd rfl hs.2.1
    · rw [Segment.move, blockOf, rawText_map_move]
      rw [blockOf, Block.move]
      rfl
  | definitions items intruder =>
    rcases items with _ | ⟨item, items⟩
    · exact absurd rfl hs.1
    · have hitems := @map_itemOf_moveItem f g inline source nested (item :: items)
        fun i hi => hnested i.2 (List.mem_map.2 ⟨i, hi, rfl⟩)
      rw [Segment.move, blockOf, hitems, blockOf, Block.move]
      rfl
  | quote first region =>
    rw [Segment.move, blockOf, hnested region (List.mem_singleton.2 rfl), blockOf, Block.move]
    rfl

/-- Lines that stand elsewhere give the same blocks and diagnostics, moved alike. -/
theorem ofLines_map_move (lines : List Line) :
    ofLines inline source (lines.map (Line.move f g)) = (ofLines inline source lines).move f g := by
  induction lines using Segment.region_induction with
  | h lines ih =>
    have hblocks : (ofLines inline source (lines.map (Line.move f g))).blocks =
        Block.moveAll f g (ofLines inline source lines).blocks := by
      rw [blocks_ofLines, blocks_ofLines, Segment.cut_map_move, Block.moveAll_eq_map, List.map_map, List.map_map]
      apply List.map_congr_left
      intro s hs
      refine blockOf_move f g inline source (Segment.drawnFrom_of_mem_cut hs) fun region hr => ?_
      rw [ih s hs region hr]
      rfl
    have hdiagnostics : (ofLines inline source (lines.map (Line.move f g))).diagnostics =
        (ofLines inline source lines).diagnostics.map (Diagnostic.move f) := by
      rw [diagnostics_ofLines_cut, diagnostics_ofLines_cut, Segment.cut_map_move, List.flatMap_map, List.map_flatMap]
      apply List.flatMap_congr
      intro s hs
      have hmessage : messageOf (s.move f g) = messageOf s := by cases s <;> rfl
      rw [Segment.regions_move, Segment.intruder_move, hmessage, warnings_move, List.flatMap_map, List.map_append,
        List.map_flatMap]
      congr 1
      apply List.flatMap_congr
      intro region hr
      rw [ih s hs region hr]
      rfl
    rw [Parsed.move, ← hblocks, ← hdiagnostics]

end Docstring

end LispDoc
