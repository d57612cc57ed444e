import LispDoc.Proofs.Docstring.Bounds
import LispDoc.Proofs.Docstring.Warnings

/-!
# Reading by position

Lines can also be read by five procedures that move a position along them and call each other: `Cursor.body`,
`Cursor.blockQuote`, `Cursor.text`, `Cursor.definitionList` and `Cursor.definition`. Nothing in them says that they come
to an end: they are given a depth to which calls may be nested, where a turn of a loop is a call too, and fail below it.
They also fail where they look at a line that is not there. An outcome carries a trace of what happened on the way:
positions that were given back, slices that became paragraphs, and regions that were read in turn.

For every list of lines the procedures come to an end, that is, from some depth on they give the same outcome
(`Cursor.Ends`). They look only at lines that are there and give what the segments of the lines give. Every position
that is given back lies behind the one at which the procedure was called, every paragraph has a line, and every region
has less text than the lines that it is in (`Cursor.reads_body`).
-/

namespace LispDoc.Docstring.Cursor

/-! ### The procedures -/

inductive Procedure where
  | blockQuote
  | text
  | definitionList
  | definition
  deriving DecidableEq, Repr

/-- What can happen on the way. -/
inductive Event where
  /-- a procedure that was called at position `start` of the lines gives back `next` -/
  | returned (procedure : Procedure) (lines : List Line) (start next : Nat)
  /-- a slice of the lines becomes a paragraph -/
  | paragraph (slice : List Line)
  /-- a region of the lines is read as a body of its own -/
  | nested (lines region : List Line)

/-- What a procedure has read, the position behind it, the problems found and all that happened. -/
structure Outcome (α : Type) where
  value : α
  next : Nat
  diagnostics : List Diagnostic
  trace : List Event

namespace Outcome

/-- One after the other. -/
def andThen {α β γ : Type} (o : Outcome α) (more : Outcome β) (f : α → β → γ) : Outcome γ :=
  ⟨f o.value more.value, more.next, o.diagnostics ++ more.diagnostics, o.trace ++ more.trace⟩

/-- Notes that a procedure gives back its position. -/
def returned {α : Type} (procedure : Procedure) (lines : List Line) (start : Nat) (o : Outcome α) : Outcome α :=
  { o with trace := o.trace ++ [.returned procedure lines start o.next] }

end Outcome

/-- The lines from one position to another, which must not be before it or behind the end. -/
def slice? (lines : List Line) (start stop : Nat) : Option (List Line) :=
  if start ≤ stop ∧ stop ≤ lines.length then some ((lines.take stop).drop start) else none

/-- The region at a position, which must not be behind the end. -/
def region? (lines : List Line) (start : Nat) : Option Region :=
  if start ≤ lines.length then some (Region.read (lines.drop start)) else none

/-- The paragraph of a slice, which must have a first line. -/
def paragraph (inline : List Char → List Inline) (source : Source) (lines : List Line) (start stop : Nat)
    (intruder : Option Line) : Option (Outcome Block) := do
  let slice ← slice? lines start stop
  let first ← slice.head?
  return ⟨.paragraph (String.ofList (rawText slice)) (inline (rawText slice)) (originOf source first), stop,
    warnings source unexpectedIndent intruder, [.paragraph slice]⟩

/-- Whether a term with a definition stands at a position. -/
def startsDefinition (lines : List Line) (position : Nat) : Bool :=
  lines[position]?.any Line.isText && lines[position + 1]?.any Line.isIndented

mutual
/-- Starts blocks from a position on, and skips blank lines. -/
def body (inline : List Char → List Inline) (source : Source) :
    (depth : Nat) → (lines : List Line) → (position : Nat) → Option (Outcome (List Block))
  | 0, _, _ => none
  | depth + 1, lines, position =>
    match lines[position]? with
    | none => some ⟨[], position, [], []⟩
    | some line =>
      match line.kind with
      | .blank => body inline source depth lines (position + 1)
      | .indented => do
        let block ← blockQuote inline source depth lines position
        let more ← body inline source depth lines block.next
        return block.andThen more (· :: ·)
      | .text => do
        let block ← text inline source depth lines position
        let more ← body inline source depth lines block.next
        return block.andThen more (· :: ·)

/-- Reads the region at a position as a body of its own. -/
def nested (inline : List Char → List Inline) (source : Source) :
    (depth : Nat) → (lines : List Line) → (start : Nat) → Option (Outcome (List Block × Bool))
  | 0, _, _ => none
  | depth + 1, lines, start => do
    let region ← region? lines start
    let blocks ← body inline source depth region.lines 0
    return ⟨(blocks.value, region.blankFinish), Region.nextAt lines start, blocks.diagnostics,
      .nested lines region.lines :: blocks.trace⟩

def blockQuote (inline : List Char → List Inline) (source : Source) :
    (depth : Nat) → (lines : List Line) → (start : Nat) → Option (Outcome Block)
  | 0, _, _ => none
  | depth + 1, lines, start => do
    let children ← nested inline source depth lines start
    let first ← lines[start]?
    return .returned .blockQuote lines start
      { children with value := .blockQuote children.value.1 (originOf source first) }

/-- Decides whether a line of text starts a definition list or a paragraph. -/
def text (inline : List Char → List Inline) (source : Source) :
    (depth : Nat) → (lines : List Line) → (start : Nat) → Option (Outcome Block)
  | 0, _, _ => none
  | depth + 1, lines, start => do
    let block ← match lines[start + 1]?.map Line.kind with
      | some .indented => definitionList inline source depth lines start
      | some .text =>
        let stop := start + ((lines.drop start).takeWhile Line.isText).length
        paragraph inline source lines start stop (lines[stop]?.filter Line.isIndented)
      | _ => paragraph inline source lines start (start + 1) none
    return block.returned .text lines start

/-- Collects items for as long as the next lines are a term and a definition. -/
def definitionList (inline : List Char → List Inline) (source : Source) :
    (depth : Nat) → (lines : List Line) → (start : Nat) → Option (Outcome Block)
  | 0, _, _ => none
  | depth + 1, lines, start => do
    let items ← definitions inline source depth lines start true
    let first ← lines[start]?
    let intruder := if items.value.2 then none else lines[items.next]?
    return .returned .definitionList lines start
      { items with
        value := .definitionList items.value.1 (originOf source first)
        diagnostics := items.diagnostics ++ warnings source unexpectedUnindent intruder }

/-- The items from a position on; `finish` tells whether a blank line precedes. -/
def definitions (inline : List Char → List Inline) (source : Source) :
    (depth : Nat) → (lines : List Line) → (position : Nat) → (finish : Bool) →
      Option (Outcome (List DefinitionItem × Bool))
  | 0, _, _, _ => none
  | depth + 1, lines, position, finish =>
    if startsDefinition lines position then do
      let item ← definition inline source depth lines position
      let more ← definitions inline source depth lines item.next item.value.2
      return item.andThen more fun first rest => (first.1 :: rest.1, rest.2)
    else some ⟨([], finish), position, [], []⟩

/-- A term and the region behind it. -/
def definition (inline : List Char → List Inline) (source : Source) :
    (depth : Nat) → (lines : List Line) → (start : Nat) → Option (Outcome (DefinitionItem × Bool))
  | 0, _, _ => none
  | depth + 1, lines, start => do
    let term ← lines[start]?
    let definition ← nested inline source depth lines (start + 1)
    return .returned .definition lines start
      { definition with value := (itemOf inline source term definition.value.1, definition.value.2) }
end

/-! ### Sound traces -/

/-- The number of bytes in the texts of all lines. -/
def textSize : List Line → Nat
  | [] => 0
  | line :: lines => Text.byteSize line.text + textSize lines

/-- A procedure moves on and stays among the lines, a paragraph has a line, and a region has less text than the lines
that it is in. -/
def Event.Sound : Event → Prop
  | returned _ lines start next => start < next ∧ next ≤ lines.length
  | paragraph slice => slice ≠ []
  | nested lines region => textSize region < textSize lines

/-- From some depth on, a procedure always gives this result. -/
def Ends {α : Type} (call : Nat → Option α) (result : α) : Prop :=
  ∃ limit, ∀ depth, limit ≤ depth → call depth = some result

namespace Ends

variable {α β : Type} {call : Nat → Option α} {a : α}

theorem bind (h : Ends call a) {more : Nat → α → Option β} {b : β} (hmore : Ends (more · a) b) :
    Ends (fun depth => call depth >>= more depth) b := by
  obtain ⟨limit, hlimit⟩ := h
  obtain ⟨limit', hlimit'⟩ := hmore
  refine ⟨max limit limit', ?_⟩
  intro depth hdepth
  have hfirst : call depth = some a := hlimit depth (by omega)
  have hsecond : more depth a = some b := hlimit' depth (by omega)
  show call depth >>= more depth = some b
  rw [hfirst]
  exact hsecond

private theorem pure (a : α) : Ends (fun _ => some a) a := ⟨0, fun _ _ => rfl⟩

/-- A procedure that calls another one needs one more level than that. -/
private theorem caller (h : Ends call a) {outer : Nat → Option β} {b : β}
    (heq : ∀ depth, call depth = some a → outer (depth + 1) = some b) : Ends outer b := by
  obtain ⟨limit, hlimit⟩ := h
  refine ⟨limit + 1, ?_⟩
  intro depth hdepth
  obtain ⟨d, rfl⟩ : ∃ d, depth = d + 1 := ⟨depth - 1, by omega⟩
  exact heq d (hlimit d (by omega))

end Ends

/-- A procedure comes to an end with these results, and nothing else than it should has happened. -/
def Reads {α : Type} (call : Nat → Option (Outcome α)) (value : α) (next : Nat) (diagnostics : List Diagnostic) :
    Prop :=
  ∃ trace, Ends call ⟨value, next, diagnostics, trace⟩ ∧ ∀ event ∈ trace, event.Sound

/-- A procedure that is called at position `start` comes to an end further on, but not behind the end of the lines, and
nothing else than it should has happened. -/
def Returns {α : Type} (lines : List Line) (start : Nat) (call : Nat → Option (Outcome α)) : Prop :=
  ∃ o, Ends call o ∧ start < o.next ∧ o.next ≤ lines.length ∧ ∀ event ∈ o.trace, event.Sound

namespace Reads

variable {α β γ : Type} {call : Nat → Option (Outcome α)} {value : α} {next : Nat} {ds : List Diagnostic}

theorem step (h : Reads call value next ds) {outer : Nat → Option (Outcome α)}
    (heq : ∀ depth, outer (depth + 1) = call depth) : Reads outer value next ds := by
  obtain ⟨trace, hends, hsound⟩ := h
  exact ⟨trace, hends.caller fun depth hcall => (heq depth).trans hcall, hsound⟩

theorem andThen (h : Reads call value next ds) (more : Nat → Outcome α → Option (Outcome β)) (f : α → β → γ)
    {value' : β} {next' : Nat} {ds' : List Diagnostic}
    (hmore : ∀ trace, Reads (more · ⟨value, next, ds, trace⟩) value' next' ds') :
    Reads (fun depth => do let o ← call depth; let o' ← more depth o; return o.andThen o' f) (f value value') next'
      (ds ++ ds') := by
  obtain ⟨trace, hends, hsound⟩ := h
  obtain ⟨trace', hends', hsound'⟩ := hmore trace
  refine ⟨trace ++ trace', ?_, List.forall_mem_append.2 ⟨hsound, hsound'⟩⟩
  exact hends.bind (hends'.bind (.pure _))

/-- A procedure may give back the position that another one has given it, if that lies behind its own. -/
private theorem returned (h : Reads call value next ds) (procedure : Procedure) {lines : List Line} {start : Nat}
    (hlt : start < next) (hle : next ≤ lines.length) {outer : Nat → Option (Outcome β)} {value' : β}
    {ds' : List Diagnostic} (heq : ∀ depth trace, call depth = some ⟨value, next, ds, trace⟩ →
      outer (depth + 1) = some (.returned procedure lines start ⟨value', next, ds', trace⟩)) :
    Reads outer value' next ds' := by
  obtain ⟨trace, hends, hsound⟩ := h
  refine ⟨_, hends.caller fun depth => heq depth trace, ?_⟩
  exact List.forall_mem_append.2 ⟨hsound, List.forall_mem_singleton.2 ⟨hlt, hle⟩⟩

private theorem returns (h : Reads call value next ds) {lines : List Line} {start : Nat} (hlt : start < next)
    (hle : next ≤ lines.length) : Returns lines start call := by
  obtain ⟨trace, hends, hsound⟩ := h
  exact ⟨_, hends, hlt, hle, hsound⟩

end Reads

/-! ### Positions -/

/-- The lines from a position on. -/
def At (lines : List Line) (position : Nat) (rest : List Line) : Prop :=
  position ≤ lines.length ∧ lines.drop position = rest

namespace At

variable {lines rest : List Line} {position : Nat} {line : Line}

theorem length (h : At lines position rest) : position + rest.length = lines.length := by
  obtain ⟨hle, rfl⟩ := h
  rw [List.length_drop]
  omega

private theorem getElem? (h : At lines position rest) : lines[position]? = rest.head? := by
  rw [← h.2, List.head?_drop]

private theorem of_getElem? (h : lines[position]? = some line) :
    At lines position (line :: lines.drop (position + 1)) := by
  obtain ⟨hlt, hget⟩ := List.getElem?_eq_some_iff.1 h
  exact ⟨by omega, by rw [List.drop_eq_getElem_cons hlt, hget]⟩

theorem succ (h : At lines position (line :: rest)) : At lines (position + 1) rest := by
  have hlength := h.length
  rw [List.length_cons] at hlength
  refine ⟨by omega, ?_⟩
  rw [← List.drop_drop, h.2]
  rfl

private theorem getElem?_succ (h : At lines position rest) : lines[position + 1]? = rest.tail.head? := by
  rw [← h.2, List.tail_drop, List.head?_drop]

private theorem of_suffix (h : At lines position rest) {after : List Line} (hs : after <:+ rest) :
    At lines (lines.length - after.length) after := by
  obtain ⟨-, rfl⟩ := h
  have hsuffix : after <:+ lines := hs.trans (List.drop_suffix position lines)
  exact ⟨Nat.sub_le _ _, (List.suffix_iff_eq_drop.1 hsuffix).symm⟩

/-- What comes later starts further behind. -/
private theorem lt_of_suffix (h : At lines position (line :: rest)) {after : List Line} (hs : after <:+ rest) :
    position < lines.length - after.length := by
  have hlength := h.length
  have hle := hs.length_le
  rw [List.length_cons] at hlength
  omega

/-- The position behind the lines of text. -/
private theorem add_length_takeWhile (h : At lines position (line :: rest)) (p : Line → Bool) :
    position + (line :: rest.takeWhile p).length = lines.length - (rest.dropWhile p).length := by
  have hlength := h.length
  have hsplit := congrArg List.length (List.takeWhile_append_dropWhile (l := rest) (p := p))
  rw [List.length_append] at hsplit
  rw [List.length_cons] at hlength ⊢
  omega

end At

private theorem startsDefinition_eq {lines rest : List Line} {position : Nat} (h : At lines position rest) :
    startsDefinition lines position = Segment.startsItem rest := by
  rw [startsDefinition, Segment.startsItem, h.getElem?, h.getElem?_succ]

private theorem rest_suffix_of_isIndented {first : Line} (hi : first.isIndented = true) (rest : List Line) :
    (Region.read (first :: rest)).rest <:+ rest := by
  have hdrop : (Region.read (first :: rest)).rest = rest.dropWhile (!·.isText) := by
    simp [Region.read, Line.isText_of_isIndented hi]
  rw [hdrop]
  exact List.dropWhile_suffix _

/-- Behind the items comes a part of what is behind the first term. -/
private theorem rest_suffix_of_run {term next : Line} {rest : List Line} (hc : (term.isText && next.isIndented) = true)
    {run : List (Line × List Line) × Bool × List Line}
    (hrun : Segment.definitionRun true (term :: next :: rest) = run) :
    run.2.2 <:+ next :: rest := by
  rw [← hrun, Segment.definitionRun_of_item hc]
  exact (Segment.definitionRun_rest_suffix _ _).trans (Region.read_rest_suffix _)

/-! ### Less text -/

@[simp] theorem textSize_cons (line : Line) (lines : List Line) :
    textSize (line :: lines) = Text.byteSize line.text + textSize lines := rfl

private theorem textSize_le_of_sublist {as bs : List Line} (h : as.Sublist bs) : textSize as ≤ textSize bs := by
  induction h with
  | slnil => exact Nat.le_refl _
  | cons line _ ih =>
    rw [textSize_cons]
    omega
  | cons_cons line _ ih =>
    rw [textSize_cons, textSize_cons]
    omega

private theorem byteSize_drop_le (n : Nat) (cs : List Char) : Text.byteSize (cs.drop n) ≤ Text.byteSize cs := by
  have h := congrArg Text.byteSize (List.take_append_drop n cs)
  rw [Text.byteSize_append] at h
  omega

private theorem byteSize_drop_lt {n : Nat} {cs : List Char} (hn : 1 ≤ n) (hne : cs ≠ []) :
    Text.byteSize (cs.drop n) < Text.byteSize cs := by
  obtain ⟨m, rfl⟩ : ∃ m, n = m + 1 := ⟨n - 1, by omega⟩
  obtain ⟨c, cs, rfl⟩ := List.exists_cons_of_ne_nil hne
  have hle := byteSize_drop_le m cs
  have hpos : 0 < c.utf8Size := c.utf8Size_pos
  rw [List.drop_succ_cons, Text.byteSize_cons]
  omega

private theorem textSize_map_drop_le (n : Nat) (lines : List Line) :
    textSize (lines.map (Line.drop n)) ≤ textSize lines := by
  induction lines with
  | nil => rfl
  | cons line lines ih =>
    have hline : Text.byteSize (line.drop n).text ≤ Text.byteSize line.text := byteSize_drop_le n line.text
    rw [List.map_cons, textSize_cons, textSize_cons]
    omega

/-- The first line of a region loses a space at least. -/
private theorem textSize_read_lt {first : Line} (hi : first.isIndented = true) (rest : List Line) :
    textSize (Region.read (first :: rest)).lines < textSize (first :: rest) := by
  obtain ⟨more, hraw⟩ := Region.raw_cons hi rest
  have hindent := Region.commonIndent_raw_pos hi rest
  have hne : first.text ≠ [] := by
    intro he
    have hblank := Line.isBlank_of_isIndented hi
    rw [(Segment.isBlank_iff first).2 he] at hblank
    exact Bool.noConfusion hblank
  have hpart : textSize (first :: more) ≤ textSize (first :: rest) := by
    rw [← hraw]
    exact textSize_le_of_sublist (Region.raw_isPrefix _).sublist
  rw [Region.read_lines, hraw] at *
  have hfirst : Text.byteSize (first.drop (Line.commonIndent (first :: more))).text < Text.byteSize first.text :=
    byteSize_drop_lt hindent hne
  have hmore := textSize_map_drop_le (Line.commonIndent (first :: more)) more
  rw [Line.dedent, List.map_cons, textSize_cons]
  rw [textSize_cons] at hpart
  omega

/-! ### What the segments of the lines give -/

section

variable (inline : List Char → List Inline) (source : Source)

/-- The block of a segment, with the blocks of its regions. -/
def segmentBlock (s : Segment) : Block := blockOf inline source (fun region => (ofLines inline source region).blocks) s

/-- What is said inside a segment and about its intruder. -/
def segmentDiagnostics (s : Segment) : List Diagnostic :=
  s.regions.flatMap (fun region => (ofLines inline source region).diagnostics) ++
    warnings source (messageOf s) s.intruder

private theorem ofLines_of_cut {lines after : List Line} {s : Segment}
    (h : Segment.cut lines = s :: Segment.cut after) :
    (ofLines inline source lines).blocks = segmentBlock inline source s :: (ofLines inline source after).blocks ∧
    (ofLines inline source lines).diagnostics =
      segmentDiagnostics inline source s ++ (ofLines inline source after).diagnostics := by
  constructor
  · rw [blocks_ofLines, h, List.map_cons, blocks_ofLines inline source after]
    rfl
  · rw [diagnostics_ofLines_cut, h, List.flatMap_cons, diagnostics_ofLines_cut inline source after]
    rfl

/-- A block is read where a segment starts, and then what is behind the segment. -/
private theorem reads_body_of_block {position : Nat} {lines rest after : List Line} {s : Segment}
    (hcut : Segment.cut rest = s :: Segment.cut after) {call : Nat → Option (Outcome Block)}
    (hblock : Reads call (segmentBlock inline source s) (lines.length - after.length)
      (segmentDiagnostics inline source s))
    (hafter : Reads (body inline source · lines (lines.length - after.length)) (ofLines inline source after).blocks
      lines.length (ofLines inline source after).diagnostics)
    (heq : ∀ depth, body inline source (depth + 1) lines position = do
      let block ← call depth
      let more ← body inline source depth lines block.next
      return block.andThen more (· :: ·)) :
    Reads (body inline source · lines position) (ofLines inline source rest).blocks lines.length
      (ofLines inline source rest).diagnostics := by
  obtain ⟨hblocks, hdiagnostics⟩ := ofLines_of_cut inline source hcut
  have hreads := hblock.andThen (fun depth block => body inline source depth lines block.next) List.cons
    fun _ => hafter
  rw [hblocks, hdiagnostics]
  exact hreads.step heq

/-- The procedures read a whole list of lines, from the first position on. -/
def ReadsAll (lines : List Line) : Prop :=
  Reads (body inline source · lines 0) (ofLines inline source lines).blocks lines.length
    (ofLines inline source lines).diagnostics

end

/-! ### Paragraphs -/

section

variable (inline : List Char → List Inline) (source : Source) {lines : List Line}

/-- The lines of text from a position on become a paragraph. -/
private theorem reads_paragraph {start : Nat} {line : Line} {rest : List Line} (hat : At lines start (line :: rest))
    (intruder : Option Line) :
    Reads (fun _ => paragraph inline source lines start (start + (line :: rest.takeWhile Line.isText).length) intruder)
      (segmentBlock inline source (.paragraph (line :: rest.takeWhile Line.isText) intruder))
      (lines.length - (rest.dropWhile Line.isText).length)
      (segmentDiagnostics inline source (.paragraph (line :: rest.takeWhile Line.isText) intruder)) := by
  have hstop := hat.add_length_takeWhile Line.isText
  have hslice : slice? lines start (start + (line :: rest.takeWhile Line.isText).length) =
      some (line :: rest.takeWhile Line.isText) := by
    have hprefix : line :: rest.takeWhile Line.isText <+: line :: rest :=
      (List.prefix_cons_inj line).2 (List.takeWhile_prefix _)
    rw [slice?, if_pos ⟨by omega, by omega⟩, List.drop_take, Nat.add_sub_cancel_left, hat.2,
      ← List.prefix_iff_eq_take.1 hprefix]
  refine ⟨[.paragraph (line :: rest.takeWhile Line.isText)], ?_, List.forall_mem_singleton.2 (List.cons_ne_nil _ _)⟩
  rw [paragraph, hslice, hstop]
  exact .pure _

private theorem reads_text_of_isText {start : Nat} {line : Line} {rest : List Line}
    (hat : At lines start (line :: rest))
    (ht : line.isText = true) (hi : rest.head?.any Line.isIndented = false) {intruder : Option Line}
    (hintruder : intruder = if rest.head?.any Line.isText then
      (rest.dropWhile Line.isText).head?.filter Line.isIndented else none) :
    Reads (text inline source · lines start)
      (segmentBlock inline source (.paragraph (line :: rest.takeWhile Line.isText) intruder))
      (lines.length - (rest.dropWhile Line.isText).length)
      (segmentDiagnostics inline source (.paragraph (line :: rest.takeWhile Line.isText) intruder)) := by
  have hafter : rest.dropWhile Line.isText <:+ rest := List.dropWhile_suffix _
  have hlt := hat.lt_of_suffix hafter
  have hstop := hat.add_length_takeWhile Line.isText
  refine (reads_paragraph inline source hat intruder).returned .text hlt (Nat.sub_le _ _) ?_
  intro depth trace hcall
  rw [text, hat.getElem?_succ]
  cases rest with
  | nil =>
    subst hintruder
    exact congrArg (· >>= fun block => some (block.returned .text lines start)) hcall
  | cons next rest =>
    cases hk : next.kind with
    | indented => simp [Line.isIndented, hk] at hi
    | blank =>
      have hnext : next.isText = false := by simp [Line.isText, hk]
      have hnone : intruder = none := by simpa [hnext] using hintruder
      have htaken : (next :: rest).takeWhile Line.isText = [] := by simp [hnext]
      have hsame : paragraph inline source lines start (start + 1) none =
          paragraph inline source lines start (start + (line :: (next :: rest).takeWhile Line.isText).length)
            intruder := by
        rw [hnone, htaken]
        rfl
      simp only [List.tail_cons, List.head?_cons, Option.map_some, hk, hsame, hcall]
      rfl
    | text =>
      have hnext : next.isText = true := by simp [Line.isText, hk]
      have htaken : (lines.drop start).takeWhile Line.isText = line :: (next :: rest).takeWhile Line.isText := by
        rw [hat.2, List.takeWhile_cons_of_pos ht]
      have hbehind : lines[start + (line :: (next :: rest).takeWhile Line.isText).length]?.filter Line.isIndented =
          intruder := by
        rw [hstop, (hat.succ.of_suffix hafter).getElem?, hintruder, if_pos (by simp [hnext])]
      simp only [List.tail_cons, List.head?_cons, Option.map_some, hk, htaken, hbehind, hcall]
      rfl

end

/-! ### Each procedure -/

section

variable {inline : List Char → List Inline} {source : Source} {lines : List Line}
  (hnested : ∀ region, textSize region < textSize lines → ReadsAll inline source region)

include hnested

private theorem reads_nested {start : Nat} {first : Line} {rest : List Line} (hat : At lines start (first :: rest))
    (hi : first.isIndented = true) :
    Reads (nested inline source · lines start)
      ((ofLines inline source (Region.read (first :: rest)).lines).blocks, (Region.read (first :: rest)).blankFinish)
      (lines.length - (Region.read (first :: rest)).rest.length)
      (ofLines inline source (Region.read (first :: rest)).lines).diagnostics := by
  have hregion : region? lines start = some (Region.read (first :: rest)) := by
    rw [region?, if_pos hat.1, hat.2]
  have hnext : Region.nextAt lines start = lines.length - (Region.read (first :: rest)).rest.length := by
    rw [Region.nextAt, hat.2]
  have hrest : textSize (first :: rest) ≤ textSize lines := by
    rw [← hat.2]
    exact textSize_le_of_sublist (List.drop_sublist _ _)
  have hless : textSize (Region.read (first :: rest)).lines < textSize lines :=
    Nat.lt_of_lt_of_le (textSize_read_lt hi rest) hrest
  obtain ⟨trace, hbody, hsound⟩ := hnested _ hless
  refine ⟨.nested lines (Region.read (first :: rest)).lines :: trace, ?_, List.forall_mem_cons.2 ⟨hless, hsound⟩⟩
  refine hbody.caller ?_
  intro depth hcall
  rw [nested, hregion, hnext]
  simp [hcall]

private theorem reads_blockQuote {start : Nat} {first : Line} {rest : List Line} (hat : At lines start (first :: rest))
    (hi : first.isIndented = true) :
    Reads (blockQuote inline source · lines start)
      (segmentBlock inline source (.quote first (Region.read (first :: rest)).lines))
      (lines.length - (Region.read (first :: rest)).rest.length)
      (segmentDiagnostics inline source (.quote first (Region.read (first :: rest)).lines)) := by
  have hlt := hat.lt_of_suffix (rest_suffix_of_isIndented hi rest)
  refine (reads_nested hnested hat hi).returned .blockQuote hlt (Nat.sub_le _ _) ?_
  intro depth trace hcall
  rw [blockQuote, hcall]
  simp [hat.getElem?, Outcome.returned, segmentBlock, blockOf, segmentDiagnostics, Segment.regions, Segment.intruder,
    warnings]

private theorem reads_definition {start : Nat} {term next : Line} {rest : List Line}
    (hat : At lines start (term :: next :: rest)) (hi : next.isIndented = true) :
    Reads (definition inline source · lines start)
      (itemOf inline source term (ofLines inline source (Region.read (next :: rest)).lines).blocks,
        (Region.read (next :: rest)).blankFinish)
      (lines.length - (Region.read (next :: rest)).rest.length)
      (ofLines inline source (Region.read (next :: rest)).lines).diagnostics := by
  have hlt := hat.lt_of_suffix (Region.read_rest_suffix (next :: rest))
  refine (reads_nested hnested hat.succ hi).returned .definition hlt (Nat.sub_le _ _) ?_
  intro depth trace hcall
  rw [definition, hcall]
  simp [hat.getElem?, Outcome.returned]

/-- The loop over the items takes the terms of a run with their regions. -/
private theorem reads_definitions (finish : Bool) (rest : List Line) : ∀ position, At lines position rest →
    Reads (definitions inline source · lines position finish)
      ((Segment.definitionRun finish rest).1.map
          fun item => itemOf inline source item.1 (ofLines inline source item.2).blocks,
        (Segment.definitionRun finish rest).2.1)
      (lines.length - (Segment.definitionRun finish rest).2.2.length)
      ((Segment.definitionRun finish rest).1.flatMap fun item => (ofLines inline source item.2).diagnostics) := by
  induction finish, rest using Segment.run_induction with
  | item finish term next rest hc ih =>
    intro position hat
    have hstarts : startsDefinition lines position = true := by
      rw [startsDefinition_eq hat]
      simpa [Segment.startsItem] using hc
    have hi : next.isIndented = true := (Bool.and_eq_true_iff.1 hc).2
    have hafter := hat.succ.of_suffix (Region.read_rest_suffix (next :: rest))
    have hreads := (reads_definition hnested hat hi).andThen
      (fun depth item => definitions inline source depth lines item.next item.value.2)
      (fun first more => (first.1 :: more.1, more.2)) fun _ => ih _ hafter
    rw [Segment.definitionRun_of_item hc]
    refine hreads.step ?_
    intro depth
    rw [definitions, if_pos hstarts]
  | stop finish rest hstop =>
    intro position hat
    have hstarts : ¬ startsDefinition lines position = true := by
      rw [startsDefinition_eq hat, hstop]
      exact Bool.false_ne_true
    have hlength := hat.length
    have hposition : position = lines.length - rest.length := by omega
    rw [Segment.definitionRun_of_not_startsItem hstop, ← hposition]
    refine ⟨[], (Ends.pure ()).caller ?_, by simp⟩
    intro depth _
    rw [definitions, if_neg hstarts]
    rfl

private theorem reads_definitionList {start : Nat} {term next : Line} {rest : List Line}
    (hat : At lines start (term :: next :: rest)) (hc : (term.isText && next.isIndented) = true)
    {run : List (Line × List Line) × Bool × List Line}
    (hrun : Segment.definitionRun true (term :: next :: rest) = run) :
    Reads (definitionList inline source · lines start)
      (segmentBlock inline source (.definitions run.1 (if run.2.1 then none else run.2.2.head?)))
      (lines.length - run.2.2.length)
      (segmentDiagnostics inline source (.definitions run.1 (if run.2.1 then none else run.2.2.head?))) := by
  have hreads := reads_definitions hnested true (term :: next :: rest) start hat
  have hfirst : run.1.head?.map (·.1) = some term := by
    rw [← hrun, Segment.definitionRun_of_item hc]
    rfl
  have hafter := rest_suffix_of_run hc hrun
  have hlt := hat.lt_of_suffix hafter
  have hintruder : lines[lines.length - run.2.2.length]? = run.2.2.head? := (hat.succ.of_suffix hafter).getElem?
  rw [hrun] at hreads
  refine hreads.returned .definitionList hlt (Nat.sub_le _ _) ?_
  intro depth trace hcall
  rw [definitionList, hcall]
  simp [hat.getElem?, hintruder, Outcome.returned, segmentBlock, Docstring.blockOf, segmentDiagnostics, Segment.regions,
    Segment.intruder, messageOf, hfirst, segmentOrigin, List.flatMap_map]

private theorem reads_text_of_term {start : Nat} {term next : Line} {rest : List Line}
    (hat : At lines start (term :: next :: rest)) (hc : (term.isText && next.isIndented) = true)
    {run : List (Line × List Line) × Bool × List Line}
    (hrun : Segment.definitionRun true (term :: next :: rest) = run) :
    Reads (text inline source · lines start)
      (segmentBlock inline source (.definitions run.1 (if run.2.1 then none else run.2.2.head?)))
      (lines.length - run.2.2.length)
      (segmentDiagnostics inline source (.definitions run.1 (if run.2.1 then none else run.2.2.head?))) := by
  have hkind : lines[start + 1]?.map Line.kind = some .indented := by
    rw [hat.getElem?_succ]
    simpa [Line.isIndented] using (Bool.and_eq_true_iff.1 hc).2
  have hlt := hat.lt_of_suffix (rest_suffix_of_run hc hrun)
  refine (reads_definitionList hnested hat hc hrun).returned .text hlt (Nat.sub_le _ _) ?_
  intro depth trace hcall
  rw [text, hkind]
  simp [hcall]

/-! ### The whole body -/

private theorem reads_body_from (rest : List Line) : ∀ position, At lines position rest →
    Reads (body inline source · lines position) (ofLines inline source rest).blocks lines.length
      (ofLines inline source rest).diagnostics := by
  induction rest using Segment.cut_induction with
  | nil =>
    intro position hat
    have hlength : position = lines.length := hat.length
    refine ⟨[], (Ends.pure ()).caller ?_, by simp⟩
    intro depth _
    rw [body, hat.getElem?, blocks_ofLines, diagnostics_ofLines_cut, Segment.cut_nil, hlength]
    rfl
  | blank line rest hb ih =>
    intro position hat
    have hsame : ofLines inline source (line :: rest) = ofLines inline source rest := by
      rw [ofLines_eq, Segment.cut_of_isBlank hb, ← ofLines_eq]
    have hk : line.kind = .blank := by simpa [Line.isBlank] using hb
    rw [hsame]
    refine (ih _ hat.succ).step ?_
    intro depth
    rw [body, hat.getElem?]
    simp only [List.head?_cons, hk]
  | indented line rest hi ih =>
    intro position hat
    have hk : line.kind = .indented := by simpa [Line.isIndented] using hi
    have hafter := hat.of_suffix (Region.read_rest_suffix (line :: rest))
    have hreads := reads_blockQuote hnested hat hi
    refine reads_body_of_block _ _ (Segment.cut_of_isIndented hi rest) hreads (ih _ hafter) ?_
    intro depth
    rw [body, hat.getElem?]
    simp only [List.head?_cons, hk]
  | term line rest ht hi ih =>
    intro position hat
    have hk : line.kind = .text := by simpa [Line.isText] using ht
    rcases rest with _ | ⟨next, rest⟩
    · simp at hi
    · have hc : (line.isText && next.isIndented) = true := by
        rw [ht]
        simpa using hi
      have hrun := Segment.definitionRun_of_item hc true rest
      have hafter := hat.succ.of_suffix (rest_suffix_of_run hc hrun)
      have hreads := reads_text_of_term hnested hat hc hrun
      refine reads_body_of_block _ _ (Segment.cut_of_term ht hi) hreads (ih _ hafter) ?_
      intro depth
      rw [body, hat.getElem?]
      simp only [List.head?_cons, hk]
  | text line rest ht hi ih =>
    intro position hat
    have hk : line.kind = .text := by simpa [Line.isText] using ht
    have hafter := hat.succ.of_suffix (List.dropWhile_suffix (l := rest) Line.isText)
    have hreads := reads_text_of_isText inline source hat ht hi rfl
    refine reads_body_of_block _ _ (Segment.cut_of_isText ht hi) hreads (ih _ hafter) ?_
    intro depth
    rw [body, hat.getElem?]
    simp only [List.head?_cons, hk]

end

/-- Every region has less text than the lines it is in, so that reading regions in turn ends. -/
private theorem readsAll (inline : List Char → List Inline) (source : Source) (lines : List Line) :
    ReadsAll inline source lines := by
  induction hsize : textSize lines using Nat.strongRecOn generalizing lines with
  | ind size ih =>
    have hnested : ∀ region, textSize region < textSize lines → ReadsAll inline source region := by
      intro region hless
      exact ih (textSize region) (hsize ▸ hless) region rfl
    exact reads_body_from hnested lines 0 ⟨Nat.zero_le _, rfl⟩

section

variable (inline : List Char → List Inline) (source : Source) {lines : List Line} {start : Nat}

private theorem returns_blockQuote {line : Line} (h : lines[start]? = some line) (hi : line.isIndented = true) :
    Returns lines start (blockQuote inline source · lines start) := by
  have hat := At.of_getElem? h
  have hreads := reads_blockQuote (fun region _ => readsAll inline source region) hat hi
  exact hreads.returns (hat.lt_of_suffix (rest_suffix_of_isIndented hi _)) (Nat.sub_le _ _)

/-- A term stands at a position together with the indented line behind it. -/
private theorem exists_at_of_startsDefinition (h : startsDefinition lines start = true) :
    ∃ term next rest, At lines start (term :: next :: rest) ∧ (term.isText && next.isIndented) = true := by
  rw [startsDefinition, Bool.and_eq_true, Option.any_eq_true, Option.any_eq_true] at h
  obtain ⟨⟨term, hterm, ht⟩, next, hnext, hi⟩ := h
  have hat := At.of_getElem? hterm
  have hafter := At.of_getElem? hnext
  rw [hafter.2] at hat
  exact ⟨term, next, _, hat, by rw [ht, hi]; rfl⟩

private theorem returns_definitionList (h : startsDefinition lines start = true) :
    Returns lines start (definitionList inline source · lines start) := by
  obtain ⟨term, next, rest, hat, hc⟩ := exists_at_of_startsDefinition h
  have hreads := reads_definitionList (fun region _ => readsAll inline source region) hat hc rfl
  exact hreads.returns (hat.lt_of_suffix (rest_suffix_of_run hc rfl)) (Nat.sub_le _ _)

private theorem returns_definition (h : startsDefinition lines start = true) :
    Returns lines start (definition inline source · lines start) := by
  obtain ⟨term, next, rest, hat, hc⟩ := exists_at_of_startsDefinition h
  have hi : next.isIndented = true := (Bool.and_eq_true_iff.1 hc).2
  have hreads := reads_definition (fun region _ => readsAll inline source region) hat hi
  exact hreads.returns (hat.lt_of_suffix (Region.read_rest_suffix _)) (Nat.sub_le _ _)

private theorem returns_text {line : Line} (h : lines[start]? = some line) (ht : line.isText = true) :
    Returns lines start (text inline source · lines start) := by
  have hat := At.of_getElem? h
  by_cases hs : startsDefinition lines start = true
  · obtain ⟨term, next, rest, hat, hc⟩ := exists_at_of_startsDefinition hs
    have hreads := reads_text_of_term (fun region _ => readsAll inline source region) hat hc rfl
    exact hreads.returns (hat.lt_of_suffix (rest_suffix_of_run hc rfl)) (Nat.sub_le _ _)
  · have hi : (lines.drop (start + 1)).head?.any Line.isIndented = false := by
      rw [startsDefinition_eq hat, Segment.startsItem] at hs
      simpa [ht] using hs
    have hreads := reads_text_of_isText inline source hat ht hi rfl
    exact hreads.returns (hat.lt_of_suffix (List.dropWhile_suffix _)) (Nat.sub_le _ _)

end

/-- Whatever the lines are, the procedures come to an end, never look at a line that is not there, and give the blocks
and diagnostics of the lines. On the way every procedure gives back a position behind the one that it was called with
and at most the number of lines, every slice that becomes a paragraph has a line, and every region that is read in turn
has less text than the lines that it is in. The same holds of each procedure wherever it may be called: of a quote at an
indented line, of text at a line of text, and of a list and a definition at a term. -/
theorem reads_body (inline : List Char → List Inline) (source : Source) (lines : List Line) :
    (∃ trace, Ends (body inline source · lines 0) ⟨(ofLines inline source lines).blocks, lines.length,
      (ofLines inline source lines).diagnostics, trace⟩ ∧ ∀ event ∈ trace, event.Sound) ∧
    (∀ start line, lines[start]? = some line →
      (line.isIndented = true → Returns lines start (blockQuote inline source · lines start)) ∧
      (line.isText = true → Returns lines start (text inline source · lines start))) ∧
    ∀ start, startsDefinition lines start = true →
      Returns lines start (definitionList inline source · lines start) ∧
      Returns lines start (definition inline source · lines start) := by
  refine ⟨readsAll inline source lines, ?_, ?_⟩
  · intro start line hline
    exact ⟨returns_blockQuote inline source hline, returns_text inline source hline⟩
  · intro start hstarts
    exact ⟨returns_definitionList inline source hstarts, returns_definition inline source hstarts⟩

end LispDoc.Docstring.Cursor
