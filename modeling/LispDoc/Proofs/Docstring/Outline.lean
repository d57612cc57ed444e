import LispDoc.Proofs.Docstring.OffSide
import LispDoc.Proofs.Number.Digits
import Mathlib.Data.List.Perm.Basic

/-!
# The lines of an outline

An outline draws the nodes of a block tree in document order: blocks, items of definition lists, and the markup of a
paragraph if it has any. Each of them has a place in the drawing (`Outline.Place`), which tells for the node and for
those above it whether it is the last one of its siblings. A row is a column of two characters for each node above, a
connector and the label of the node, and the outline is made of the rows of all places (`Outline.toList_ofBlocks`).

Rows are lines as long as labels do not contain newlines. Those of blocks and items never do: the text of a paragraph is
put on one line, and terms come from one line. The label of markup does if the markup runs over the end of a line, and
then the drawing falls apart (`Outline.oneLinePerNode_parse`).
-/

namespace LispDoc

/-! ### Markup -/

namespace Inline

/-- A node that is more than plain text. -/
def isMarkup (node : Inline) : Bool := node.plain?.isNone

/-- What an outline shows of the node runs over the end of a line. -/
def SpansLines : Inline → Prop
  | plain _ => False
  | emphasis text => '\n' ∈ text.toList
  | reference r => '\n' ∈ r.target.toList
  | literal children => '\n' ∈ (textOf children).toList
  | metaVariable name => '\n' ∈ name.toList

theorem SpansLines.isMarkup {node : Inline} (h : node.SpansLines) : node.isMarkup = true := by
  cases node with
  | plain text => exact absurd h id
  | _ => rfl

end Inline

namespace Outline

theorem nodeSummary?_eq_none_iff {node : Inline} : nodeSummary? node = none ↔ node.isMarkup = false := by
  cases node <;> simp [nodeSummary?, Inline.isMarkup, Inline.plain?]

private theorem newline_notMem_describe (role : Role) : '\n' ∉ role.describe.toList := by
  cases role <;> decide

/-- A node with markup has something to show, with a newline in it exactly if it spans lines. -/
theorem nodeSummary?_eq_some {node : Inline} {text : String} (h : nodeSummary? node = some text) :
    text.toList ≠ [] ∧ ('\n' ∈ text.toList ↔ node.SpansLines) := by
  cases node with
  | plain text => cases h
  | emphasis text =>
    cases h
    simp [Inline.SpansLines]
  | reference r =>
    cases h
    simp [Inline.SpansLines, newline_notMem_describe]
  | literal children =>
    cases h
    simp [Inline.SpansLines]
  | metaVariable name =>
    cases h
    simp [Inline.SpansLines]

private theorem toList_summary (content : List Inline) :
    (summary content).toList = List.intercalate [',', ' '] ((content.filterMap nodeSummary?).map String.toList) := by
  rw [summary, String.toList_intercalate]
  rfl

private theorem mem_summary {content : List Inline} {node : Inline} (hnode : node ∈ content) {text : String}
    (htext : nodeSummary? node = some text) {c : Char} (hc : c ∈ text.toList) : c ∈ (summary content).toList := by
  rw [toList_summary]
  exact Text.mem_intercalate_of_mem (List.mem_map_of_mem (List.mem_filterMap.2 ⟨node, hnode, htext⟩)) hc

private theorem isEmpty_summary (content : List Inline) :
    (summary content).isEmpty = !content.any Inline.isMarkup := by
  cases hany : content.any Inline.isMarkup with
  | false =>
    have hnone : content.filterMap nodeSummary? = [] := by
      rw [List.filterMap_eq_nil_iff]
      intro node hnode
      rw [nodeSummary?_eq_none_iff]
      simpa using List.any_eq_false.1 hany node hnode
    rw [summary, hnone]
    rfl
  | true =>
    obtain ⟨node, hnode, hmarkup⟩ := List.any_eq_true.1 hany
    obtain ⟨text, htext⟩ : ∃ text, nodeSummary? node = some text := by
      rw [← Option.ne_none_iff_exists', Ne, nodeSummary?_eq_none_iff, hmarkup]
      simp
    obtain ⟨c, hc⟩ := List.exists_mem_of_ne_nil _ (nodeSummary?_eq_some htext).1
    have hmem := mem_summary hnode htext hc
    have hne : summary content ≠ "" := by
      intro hempty
      rw [hempty] at hmem
      simp at hmem
    simpa using hne

/-- Markup is shown over several lines exactly if a part of it spans lines. -/
private theorem newline_mem_summary {content : List Inline} :
    '\n' ∈ (summary content).toList ↔ ∃ node ∈ content, node.SpansLines := by
  constructor
  · intro h
    rw [toList_summary] at h
    rcases Text.mem_of_mem_intercalate h with h | ⟨piece, hpiece, h⟩
    · exact absurd h (by decide)
    · obtain ⟨text, htext, rfl⟩ := List.mem_map.1 hpiece
      obtain ⟨node, hnode, hsummary⟩ := List.mem_filterMap.1 htext
      exact ⟨node, hnode, (nodeSummary?_eq_some hsummary).2.1 h⟩
  · rintro ⟨node, hnode, hspans⟩
    cases hsummary : nodeSummary? node with
    | none =>
      rw [nodeSummary?_eq_none_iff, hspans.isMarkup] at hsummary
      cases hsummary
    | some text => exact mem_summary hnode hsummary ((nodeSummary?_eq_some hsummary).2.2 hspans)

end Outline

/-! ### Nodes of a block tree -/

namespace Block

/-- The items of a definition list. -/
def items : Block → List DefinitionItem
  | definitionList items _ => items
  | _ => []

/-- The inline nodes of a paragraph. -/
def content : Block → List Inline
  | paragraph _ content _ => content
  | _ => []

def hasMarkup (block : Block) : Bool := block.content.any Inline.isMarkup

/-- The blocks of a tree at all depths. -/
def all (blocks : List Block) : List Block := blocks ++ (sequencesOf blocks).flatten

end Block

namespace Outline

/-- What an outline has a line for. -/
inductive Node where
  | block (block : Block)
  | item (item : DefinitionItem)
  | markup (content : List Inline)

/-- What an outline tells of a block besides its kind and its line. -/
def detail : Block → String
  | .paragraph raw _ _ => ": " ++ truncate 30 (Text.oneLine raw)
  | .definitionList items _ => ": " ++ String.ofList (Digits.ofNat items.length) ++ " items"
  | .blockQuote .. => ""

/-- The text of a node. -/
def Node.label : Node → String
  | block b => b.kindName ++ "@" ++ String.ofList (Digits.ofNat b.origin.line) ++ detail b
  | item i => "Term@" ++ String.ofList (Digits.ofNat i.origin.line) ++ ": " ++ truncate 30 i.term
  | markup content => "[" ++ summary content ++ "]"

/-- A node in a drawing: whether it is the last one of its siblings, and the same for the nodes above it, from the
outside in. -/
structure Place where
  above : List Bool
  last : Bool
  node : Node

/-- Columns for nodes above, of two characters each. -/
def columns (above : List Bool) : List Char := above.flatMap fun last => (column last).toList

/-- The row of a node: columns, a connector and the label. -/
def Place.row (p : Place) : List Char :=
  columns p.above ++ (connector p.last).toList ++ ' ' :: p.node.label.toList

mutual
/-- The places of a block and of all that is inside it, in document order. -/
def places (above : List Bool) (last : Bool) : Block → List Place
  | .paragraph raw content origin =>
    ⟨above, last, .block (.paragraph raw content origin)⟩ ::
      if content.any Inline.isMarkup then [⟨above ++ [last], true, .markup content⟩] else []
  | .definitionList items origin =>
    ⟨above, last, .block (.definitionList items origin)⟩ :: itemPlaces (above ++ [last]) items
  | .blockQuote children origin =>
    ⟨above, last, .block (.blockQuote children origin)⟩ :: placesOf (above ++ [last]) children

def itemPlaces (above : List Bool) : List DefinitionItem → List Place
  | [] => []
  | .mk term content definition origin :: items =>
    ⟨above, items.isEmpty, .item (.mk term content definition origin)⟩ ::
      (placesOf (above ++ [items.isEmpty]) definition ++ itemPlaces above items)

def placesOf (above : List Bool) : List Block → List Place
  | [] => []
  | b :: blocks => places above blocks.isEmpty b ++ placesOf above blocks
end

/-! ### Rows -/

theorem columns_append (above : List Bool) (last : Bool) :
    columns (above ++ [last]) = columns above ++ (column last).toList := by
  simp [columns]

private theorem toList_lead {lead : String} {above : List Bool} (h : lead.toList = columns above) (last : Bool) :
    (lead ++ column last).toList = columns (above ++ [last]) := by
  rw [String.toList_append, h, columns_append]

/-- The rows of some places, a newline after each. -/
def rows (ps : List Place) : List Char := (ps.map Place.row).flatMap (· ++ ['\n'])

@[simp] theorem rows_nil : rows [] = [] := rfl

@[simp] theorem rows_cons (p : Place) (ps : List Place) : rows (p :: ps) = p.row ++ '\n' :: rows ps := by
  simp [rows]

@[simp] theorem rows_append (ps qs : List Place) : rows (ps ++ qs) = rows ps ++ rows qs := by
  simp [rows]

private theorem toList_entry (last : Bool) (kind : String) (line : Nat) (detail : String) :
    (entry last kind line detail).toList =
      (connector last).toList ++
        ' ' :: ((kind ++ "@" ++ String.ofList (Digits.ofNat line) ++ detail).toList ++ ['\n']) := by
  simp [entry]

mutual
/-- The outline of a block is made of the rows of its places. -/
private theorem toList_block {lead : String} {above : List Bool} (hlead : lead.toList = columns above) (last : Bool)
    (b : Block) : (block lead last b).toList = rows (places above last b) := by
  cases b with
  | paragraph raw content origin =>
    rw [block, places, isEmpty_summary, rows_cons]
    cases content.any Inline.isMarkup with
    | false => simp [Place.row, Node.label, toList_entry, hlead, Block.kindName, Block.origin, detail]
    | true =>
      simp [Place.row, Node.label, toList_entry, hlead, Block.kindName, Block.origin, detail, columns_append, connector]
  | definitionList items origin =>
    rw [block, places, rows_cons, String.toList_append, toList_itemList (toList_lead hlead last) items]
    simp [Place.row, Node.label, toList_entry, hlead, Block.kindName, Block.origin, detail]
  | blockQuote children origin =>
    rw [block, places, rows_cons, String.toList_append, toList_blockList (toList_lead hlead last) children]
    simp [Place.row, Node.label, toList_entry, hlead, Block.kindName, Block.origin, detail]

private theorem toList_itemList {lead : String} {above : List Bool} (hlead : lead.toList = columns above)
    (items : List DefinitionItem) : (itemList lead items).toList = rows (itemPlaces above items) := by
  cases items with
  | nil => rw [itemList, itemPlaces]; rfl
  | cons item items =>
    obtain ⟨term, content, definition, origin⟩ := item
    rw [itemList, itemPlaces, rows_cons, rows_append, String.toList_append, String.toList_append,
      toList_blockList (toList_lead hlead items.isEmpty) definition, toList_itemList hlead items]
    simp [Place.row, Node.label, toList_entry, hlead, DefinitionItem.origin, DefinitionItem.term]

private theorem toList_blockList {lead : String} {above : List Bool} (hlead : lead.toList = columns above)
    (blocks : List Block) : (blockList lead blocks).toList = rows (placesOf above blocks) := by
  cases blocks with
  | nil => rw [blockList, placesOf]; rfl
  | cons b blocks =>
    rw [blockList, placesOf, rows_append, String.toList_append, toList_block hlead blocks.isEmpty b,
      toList_blockList hlead blocks]
end

theorem toList_ofBlocks (blocks : List Block) : (ofBlocks blocks).toList = rows (placesOf [] blocks) :=
  toList_blockList rfl blocks

/-! ### Counting nodes -/

/-- The nodes of a block itself: the block, its items and its markup. -/
def own (b : Block) : List Node :=
  .block b :: (b.items.map .item ++ if b.hasMarkup then [.markup b.content] else [])

mutual
/-- The places of a block are those of its own nodes and of the nodes of all blocks inside. -/
private theorem perm_places (above : List Bool) (last : Bool) (b : Block) :
    ((places above last b).map Place.node).Perm (own b ++ b.sequences.flatten.flatMap own) := by
  cases b with
  | paragraph raw content origin =>
    rw [places, own, Block.sequences]
    by_cases hany : content.any Inline.isMarkup = true <;> simp [Block.items, Block.hasMarkup, Block.content, hany]
  | definitionList items origin =>
    rw [places, own, Block.sequences]
    simpa [Block.items, Block.hasMarkup, Block.content] using perm_itemPlaces (above ++ [last]) items
  | blockQuote children origin =>
    rw [places, own, Block.sequences]
    simpa [Block.items, Block.hasMarkup, Block.content, Block.all] using perm_placesOf (above ++ [last]) children

private theorem perm_itemPlaces (above : List Bool) (items : List DefinitionItem) :
    ((itemPlaces above items).map Place.node).Perm
      (items.map .item ++ (Block.itemSequences items).flatten.flatMap own) := by
  cases items with
  | nil => simp [itemPlaces, Block.itemSequences]
  | cons item items =>
    obtain ⟨term, content, definition, origin⟩ := item
    have hdefinition := perm_placesOf (above ++ [items.isEmpty]) definition
    have hitems := perm_itemPlaces above items
    rw [itemPlaces, Block.itemSequences, List.map_cons, List.map_append, List.map_cons, List.cons_append]
    refine ((hdefinition.append hitems).trans ?_).cons _
    have hflatten : (definition :: (Block.sequencesOf definition ++ Block.itemSequences items)).flatten =
        Block.all definition ++ (Block.itemSequences items).flatten := by
      simp [Block.all]
    rw [hflatten, List.flatMap_append]
    exact List.perm_append_comm_assoc _ _ _

private theorem perm_placesOf (above : List Bool) (blocks : List Block) :
    ((placesOf above blocks).map Place.node).Perm ((Block.all blocks).flatMap own) := by
  cases blocks with
  | nil => simp [placesOf, Block.all, Block.sequencesOf]
  | cons b blocks =>
    have hb := perm_places above blocks.isEmpty b
    have hblocks := perm_placesOf above blocks
    rw [placesOf, List.map_append]
    refine (hb.append hblocks).trans ?_
    rw [Block.all, Block.all, Block.sequencesOf, List.flatten_append, List.cons_append, List.flatMap_cons,
      List.flatMap_append, List.flatMap_append, List.flatMap_append, List.append_assoc]
    exact (List.perm_append_comm_assoc _ _ _).append_left (own b)
end

/-- The number of nodes of a tree: blocks at all depths, items, and paragraphs with markup. -/
def nodeCount (blocks : List Block) : Nat :=
  (Block.all blocks).length + ((Block.all blocks).flatMap Block.items).length +
    (Block.all blocks).countP Block.hasMarkup

private theorem length_own (b : Block) : (own b).length = 1 + b.items.length + if b.hasMarkup then 1 else 0 := by
  rw [own, List.length_cons, List.length_append, List.length_map]
  split
  · rw [List.length_singleton]
    omega
  · rw [List.length_nil]
    omega

private theorem length_flatMap_own (bs : List Block) :
    (bs.flatMap own).length = bs.length + (bs.flatMap Block.items).length + bs.countP Block.hasMarkup := by
  induction bs with
  | nil => rfl
  | cons b bs ih =>
    rw [List.flatMap_cons, List.length_append, ih, length_own, List.length_cons, List.flatMap_cons, List.length_append,
      List.countP_cons]
    omega

private theorem length_placesOf (above : List Bool) (blocks : List Block) :
    (placesOf above blocks).length = nodeCount blocks := by
  have hperm := (perm_placesOf above blocks).length_eq
  rw [List.length_map, length_flatMap_own] at hperm
  exact hperm

/-! ### Newlines in labels -/

/-- The labels of some nodes, one after the other. -/
def labels (nodes : List Node) : List Char := nodes.flatMap fun n => n.label.toList

@[simp] theorem labels_nil : labels [] = [] := rfl

@[simp] theorem labels_cons (n : Node) (nodes : List Node) : labels (n :: nodes) = n.label.toList ++ labels nodes :=
  List.flatMap_cons

@[simp] theorem labels_append (ms ns : List Node) : labels (ms ++ ns) = labels ms ++ labels ns :=
  List.flatMap_append

private theorem newline_notMem_truncate {text : String} (h : '\n' ∉ text.toList) (limit : Nat) :
    '\n' ∉ (truncate limit text).toList := by
  unfold truncate
  split
  · intro hmem
    rw [String.toList_append, String.toList_ofList, List.mem_append] at hmem
    rcases hmem with hmem | hmem
    · exact h (List.mem_of_mem_take hmem)
    · exact absurd hmem (by decide)
  · exact h

private theorem newline_notMem_ofNat (n : Nat) : '\n' ∉ Digits.ofNat n := by
  intro h
  exact absurd (Digits.isDigit_of_mem_ofNat h) (by decide)

private theorem newline_notMem_detail (b : Block) : '\n' ∉ (detail b).toList := by
  cases b with
  | paragraph raw content origin =>
    simp [detail, newline_notMem_truncate (Text.newline_notMem_oneLine raw)]
  | definitionList items origin => simp [detail, newline_notMem_ofNat]
  | blockQuote children origin => simp [detail]

private theorem newline_notMem_label_block (b : Block) : '\n' ∉ (Node.block b).label.toList := by
  have hkind : '\n' ∉ b.kindName.toList := by
    cases b <;> simp [Block.kindName]
  simp [Node.label, hkind, newline_notMem_ofNat, newline_notMem_detail]

private theorem newline_notMem_label_item {i : DefinitionItem} (h : '\n' ∉ i.term.toList) :
    '\n' ∉ (Node.item i).label.toList := by
  simp [Node.label, newline_notMem_ofNat, newline_notMem_truncate h]

private theorem count_label_markup (content : List Inline) :
    (Node.markup content).label.toList.count '\n' = (summary content).toList.count '\n' := by
  simp [Node.label]

private theorem count_row (p : Place) : p.row.count '\n' = p.node.label.toList.count '\n' := by
  have hcolumns : '\n' ∉ columns p.above := by
    intro h
    obtain ⟨last, -, h⟩ := List.mem_flatMap.1 h
    cases last <;> exact absurd h (by decide)
  have hconnector : '\n' ∉ (connector p.last).toList := by
    cases p.last <;> decide
  rw [Place.row, List.count_append, List.count_append, List.count_eq_zero_of_not_mem hcolumns,
    List.count_eq_zero_of_not_mem hconnector, List.count_cons_of_ne (by decide)]
  omega

/-- Newlines end rows, and others stand in labels. -/
private theorem count_rows (ps : List Place) :
    (rows ps).count '\n' = ps.length + (labels (ps.map Place.node)).count '\n' := by
  induction ps with
  | nil => rfl
  | cons p ps ih =>
    rw [rows_cons, List.count_append, List.count_cons_self, ih, count_row, List.length_cons, List.map_cons,
      labels_cons, List.count_append]
    omega

/-- Of the nodes of a block its markup alone has newlines in its label. -/
private theorem count_labels_own {b : Block} (h : ∀ i ∈ b.items, '\n' ∉ i.term.toList) :
    (labels (own b)).count '\n' = (summary b.content).toList.count '\n' := by
  have hitems : '\n' ∉ labels (b.items.map Node.item) := by
    intro hmem
    obtain ⟨n, hn, hmem⟩ := List.mem_flatMap.1 hmem
    obtain ⟨i, hi, rfl⟩ := List.mem_map.1 hn
    exact newline_notMem_label_item (h i hi) hmem
  rw [own, labels_cons, labels_append, List.count_append, List.count_append, List.count_eq_zero.2 hitems,
    List.count_eq_zero.2 (newline_notMem_label_block b)]
  by_cases hmarkup : b.hasMarkup = true
  · rw [if_pos hmarkup, labels_cons, List.count_append, count_label_markup, labels_nil, List.count_nil]
    omega
  · have hempty : summary b.content = "" := by
      have hisEmpty := isEmpty_summary b.content
      rw [← Block.hasMarkup, Bool.eq_false_iff.2 hmarkup] at hisEmpty
      simpa using hisEmpty
    rw [if_neg hmarkup, hempty]
    rfl

/-- What an outline shows of the markup of some blocks. -/
def summaries (bs : List Block) : List Char := bs.flatMap fun b => (summary b.content).toList

private theorem count_labels_flatMap_own {bs : List Block} (h : ∀ b ∈ bs, ∀ i ∈ b.items, '\n' ∉ i.term.toList) :
    (labels (bs.flatMap own)).count '\n' = (summaries bs).count '\n' := by
  induction bs with
  | nil => rfl
  | cons b bs ih =>
    rw [List.flatMap_cons, labels_append, List.count_append, count_labels_own (h b (by simp)),
      ih fun c hc => h c (by simp [hc]), summaries, summaries, List.flatMap_cons, List.count_append]

/-- The markup of some blocks contains no newline exactly if no part of it spans lines. -/
private theorem newline_notMem_summaries {bs : List Block} :
    '\n' ∉ summaries bs ↔ ∀ b ∈ bs, ∀ node ∈ b.content, ¬ node.SpansLines := by
  constructor
  · intro h b hb node hnode hspans
    exact h (List.mem_flatMap.2 ⟨b, hb, newline_mem_summary.2 ⟨node, hnode, hspans⟩⟩)
  · intro h hmem
    obtain ⟨b, hb, hmem⟩ := List.mem_flatMap.1 hmem
    obtain ⟨node, hnode, hspans⟩ := newline_mem_summary.1 hmem
    exact h b hb node hnode hspans

/-- Apart from the ends of rows newlines come from markup, as long as there are none in terms. -/
private theorem count_ofBlocks {blocks : List Block}
    (hterms : ∀ b ∈ Block.all blocks, ∀ i ∈ b.items, '\n' ∉ i.term.toList) :
    (ofBlocks blocks).toList.count '\n' = nodeCount blocks + (summaries (Block.all blocks)).count '\n' := by
  have hperm := ((perm_placesOf [] blocks).flatMap_right fun n => n.label.toList).count_eq '\n'
  rw [toList_ofBlocks, count_rows, length_placesOf, ← count_labels_flatMap_own hterms]
  exact congrArg (nodeCount blocks + ·) hperm

/-- One line for each node: the newlines are as many as the nodes, and the lines are the rows of the nodes. -/
structure OneLinePerNode (blocks : List Block) : Prop where
  count : (ofBlocks blocks).toList.count '\n' = nodeCount blocks
  lines : Text.splitAt '\n' (ofBlocks blocks).toList = (placesOf [] blocks).map Place.row ++ [[]]

private theorem newline_notMem_row {blocks : List Block}
    (hterms : ∀ b ∈ Block.all blocks, ∀ i ∈ b.items, '\n' ∉ i.term.toList)
    (hmarkup : ∀ b ∈ Block.all blocks, ∀ node ∈ b.content, ¬ node.SpansLines) {p : Place}
    (hp : p ∈ placesOf [] blocks) : '\n' ∉ p.row := by
  have hnode : p.node ∈ (Block.all blocks).flatMap own :=
    (perm_placesOf [] blocks).mem_iff.1 (List.mem_map_of_mem hp)
  obtain ⟨b, hb, hown⟩ := List.mem_flatMap.1 hnode
  rw [← List.count_eq_zero, count_row, List.count_eq_zero]
  rw [own, List.mem_cons, List.mem_append] at hown
  rcases hown with hown | hown | hown
  · rw [hown]
    exact newline_notMem_label_block b
  · obtain ⟨i, hi, hown⟩ := List.mem_map.1 hown
    rw [← hown]
    exact newline_notMem_label_item (hterms b hb i hi)
  · have heq : p.node = .markup b.content := by
      split at hown
      · exact List.mem_singleton.1 hown
      · cases hown
    rw [heq, ← List.count_eq_zero, count_label_markup, List.count_eq_zero, newline_mem_summary]
    rintro ⟨node, hmem, hspans⟩
    exact hmarkup b hb node hmem hspans

private theorem oneLinePerNode_iff {blocks : List Block}
    (hterms : ∀ b ∈ Block.all blocks, ∀ i ∈ b.items, '\n' ∉ i.term.toList) :
    OneLinePerNode blocks ↔ ∀ b ∈ Block.all blocks, ∀ node ∈ b.content, ¬ node.SpansLines := by
  have hcount := count_ofBlocks hterms
  constructor
  · intro h
    have hlines := h.count
    rw [← newline_notMem_summaries, ← List.count_eq_zero]
    omega
  · intro h
    have hnone := List.count_eq_zero.2 (newline_notMem_summaries.2 h)
    constructor
    · omega
    · rw [toList_ofBlocks, rows, Text.splitAt_flatMap]
      intro row hrow
      obtain ⟨p, hp, rfl⟩ := List.mem_map.1 hrow
      exact newline_notMem_row hterms h hp

end Outline

namespace Docstring

open Block

variable {text : List Char} {source : Source} {lines : List Line}

/-- Terms come from lines. -/
private theorem exists_line_of_mem_items (inline : List Char → List Inline) (nested : List Line → Parsed) {s : Segment}
    (hs : s.DrawnFrom lines) {block : Block}
    (hblock : block ∈ (ofSegment inline source s fun region _ => nested region).blocks) {item : DefinitionItem}
    (hitem : item ∈ block.items) : ∃ line ∈ lines, item.term = String.ofList (Text.trim line.text) := by
  cases s with
  | paragraph ls intruder =>
    rw [ofSegment, List.mem_singleton] at hblock
    simp [hblock, Block.items] at hitem
  | definitions items intruder =>
    rw [ofSegment_definitions, List.mem_singleton] at hblock
    rw [hblock, Block.items] at hitem
    obtain ⟨part, hpart, rfl⟩ := List.mem_map.1 hitem
    exact ⟨part.1, (hs.2 part hpart).1, rfl⟩
  | quote first region =>
    rw [ofSegment, List.mem_singleton] at hblock
    simp [hblock, Block.items] at hitem

private theorem newline_notMem_terms (inline : List Char → List Inline) (source : Source) (hrun : Line.Run text lines) :
    ∀ block ∈ all (ofLines inline source lines).blocks, ∀ item ∈ block.items, '\n' ∉ item.term.toList := by
  induction lines using Segment.region_induction with
  | h lines ih =>
    intro block hblock item hitem
    rw [all, List.mem_append, List.mem_flatten] at hblock
    rcases hblock with hblock | ⟨s, hs, hblock⟩
    · obtain ⟨segment, hsegment, hblock⟩ := mem_blocks_ofLines hblock
      obtain ⟨line, hl, hterm⟩ :=
        exists_line_of_mem_items inline _ (Segment.drawnFrom_of_mem_cut hsegment) hblock hitem
      rw [hterm, String.toList_ofList]
      exact fun hmem => hrun.noBreak line hl (Text.mem_of_mem_trim hmem)
    · obtain ⟨outer, houter, hs⟩ := mem_sequencesOf.1 hs
      obtain ⟨segment, hsegment, houter⟩ := mem_blocks_ofLines houter
      obtain ⟨part, hpart, hs⟩ := mem_sequences.1 hs
      obtain ⟨region, hmem, hr, hblocks⟩ :=
        exists_region_of_mem_inner inline _ (Segment.startsIn_of_mem_cut hrun.follow hsegment) houter hpart
      refine ih segment hsegment region hmem (hr.run hrun) block ?_ item hitem
      rw [← hblocks, all, List.mem_append, List.mem_flatten]
      rcases hs with rfl | hs
      · exact .inl hblock
      · exact .inr ⟨s, hs, hblock⟩

end Docstring

namespace Outline

open Docstring

/-- The outline of a docstring is made of one row for each node, in document order, and has a newline at the end of each
row. All others stand in the markup of paragraphs, so that there is one line for each node exactly if no markup of a
paragraph runs over the end of a line. -/
theorem oneLinePerNode_parse (options : Options) (source : Source) (text : String) :
    let blocks := (parse options source text).blocks
    (ofBlocks blocks).toList = ((placesOf [] blocks).map Place.row).flatMap (· ++ ['\n']) ∧
      (placesOf [] blocks).length = nodeCount blocks ∧
      (ofBlocks blocks).toList.count '\n' = nodeCount blocks + (summaries (Block.all blocks)).count '\n' ∧
      (OneLinePerNode blocks ↔ ∀ b ∈ Block.all blocks, ∀ node ∈ b.content, ¬ node.SpansLines) := by
  intro blocks
  have hterms := newline_notMem_terms options.markup.nodes source (Line.run_split options.tabWidth text.toList)
  exact ⟨toList_ofBlocks blocks, length_placesOf [] blocks, count_ofBlocks hterms, oneLinePerNode_iff hterms⟩

theorem not_oneLinePerNode_emphasis :
    (ofBlocks (parse {} {} "*a\nb*").blocks).toList.count '\n' = 3 ∧ nodeCount (parse {} {} "*a\nb*").blocks = 2 ∧
      ¬ OneLinePerNode (parse {} {} "*a\nb*").blocks := by
  have hdrawn : (ofBlocks (parse {} {} "*a\nb*").blocks).toList.count '\n' = 3 := by decide +kernel
  have hnodes : nodeCount (parse {} {} "*a\nb*").blocks = 2 := by decide +kernel
  refine ⟨hdrawn, hnodes, fun h => ?_⟩
  have hcount := h.count
  omega

end Outline

end LispDoc
