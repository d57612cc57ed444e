import LispDoc.Proofs.Docstring.Region
import LispDoc.Proofs.Docstring.TabStops
import LispDoc.Proofs.Text.Splitting
import Mathlib.Data.List.Chain
import Mathlib.Data.List.TakeWhile

/-!
# The lines of a docstring

The lines that a docstring is cut into follow each other, hold no newline and more than spaces unless they are blank,
and start where they say (`Line.run_split`). These facts together, `Line.Run`, pass to consecutive lines and to lines
without their common indentation, and so to every region inside a docstring. No white space stands at the end of a
line (`Line.trimmed_of_mem_split`).
-/

namespace LispDoc

/-! ### Where lines start -/

/-- Line `number` of the text starts at byte `offset`: so many bytes lie before it, they end in a newline unless there
are none, and they hold one newline for each line before. -/
def StartsLine (text : List Char) (number offset : Nat) : Prop :=
  ∃ before after, text = before ++ after ∧ Text.byteSize before = offset ∧
    (before = [] ∨ before.getLast? = some '\n') ∧ before.count '\n' + 1 = number

namespace Line

/-- Consecutive lines of a text, perhaps with some of their indentation taken off. -/
structure Run (text : List Char) (lines : List Line) : Prop where
  follow : lines.IsChain fun a b => b.number = a.number + 1
  solid : ∀ line ∈ lines, line.Solid
  noBreak : ∀ line ∈ lines, '\n' ∉ line.text
  starts : ∀ line ∈ lines, StartsLine text line.number line.offset

theorem Run.part {text : List Char} {as bs : List Line} (h : Run text bs) (hi : as <:+: bs) : Run text as :=
  ⟨ List.IsChain.infix h.follow hi, fun l hl => h.solid l (hi.subset hl), fun l hl => h.noBreak l (hi.subset hl),
    fun l hl => h.starts l (hi.subset hl)⟩

theorem Run.dedent {text : List Char} {lines : List Line} (h : Run text lines) : Run text (Line.dedent lines) := by
  refine ⟨?_, fun l hl => solid_of_mem_dedent h.solid hl, ?_, ?_⟩
  · exact (List.isChain_map _).2 h.follow
  · intro l hl
    obtain ⟨k, hk, rfl⟩ := List.mem_map.1 hl
    exact fun hmem => h.noBreak k hk (List.mem_of_mem_drop hmem)
  · intro l hl
    obtain ⟨k, hk, rfl⟩ := List.mem_map.1 hl
    exact h.starts k hk

/-! ### The lines of a docstring -/

theorem newline_notMem_text {width : Nat} {raw : List Char} (h : '\n' ∉ raw) :
    '\n' ∉ Text.trimEnd (expandTabs width raw) := by
  intro hmem
  rcases mem_expandTabsFrom ((Text.trimEnd_prefix _).subset hmem) with he | hmem
  · exact absurd he (by decide)
  · exact h hmem

/-- A text without white space at its end is not made of spaces alone. -/
private theorem solid_of_trimEnd (number offset : Nat) (cs : List Char) : Solid ⟨number, offset, Text.trimEnd cs⟩ := by
  intro hb hbody
  rcases h : (Text.trimEnd cs).getLast? with _ | c
  · rw [List.getLast?_eq_none_iff] at h
    have := (Segment.isBlank_iff ⟨number, offset, Text.trimEnd cs⟩).2 h
    rw [hb] at this
    exact Bool.noConfusion this
  -- the last character would be a space, but trimming leaves no white space at the end
  · have hspace : (c == ' ') = true := List.dropWhile_eq_nil_iff.1 hbody c (List.mem_of_getLast? h)
    have hblank := Text.isBlank_getLast?_trimEnd h
    rw [eq_of_beq hspace] at hblank
    exact absurd hblank (by decide)

theorem exists_raw_of_mem_numbered {width number offset : Nat} {raws : List (List Char)} {line : Line}
    (hl : line ∈ numbered width number offset raws) :
    ∃ raw ∈ raws, ∃ n k, line = ⟨n, k, Text.trimEnd (expandTabs width raw)⟩ := by
  induction raws generalizing number offset with
  | nil => simp [numbered] at hl
  | cons raw raws ih =>
    rcases List.mem_cons.1 hl with rfl | hl
    · exact ⟨raw, by simp, _, _, rfl⟩
    · obtain ⟨r, hr, h⟩ := ih hl
      exact ⟨r, by simp [hr], h⟩

private theorem number_of_mem_head? {width number offset : Nat} {raws : List (List Char)} {line : Line}
    (h : line ∈ (numbered width number offset raws).head?) : line.number = number := by
  cases raws with
  | nil => simp [numbered] at h
  | cons raw raws => simp only [numbered, List.head?_cons, Option.mem_some_iff] at h; rw [← h]

private theorem numbered_follow (width number offset : Nat) (raws : List (List Char)) :
    (numbered width number offset raws).IsChain fun a b => b.number = a.number + 1 := by
  induction raws generalizing number offset with
  | nil => exact .nil
  | cons raw raws ih => exact (ih _ _).cons fun line hl => number_of_mem_head? hl

/-- The induction keeps what has been numbered already as `before`: it ends where the next line starts. -/
private theorem numbered_starts {text : List Char} (before : List Char) {width number offset : Nat}
    {raws : List (List Char)} (hraw : ∀ raw ∈ raws, '\n' ∉ raw) (htext : text = before ++ List.intercalate ['\n'] raws)
    (hoffset : Text.byteSize before = offset) (hlast : before = [] ∨ before.getLast? = some '\n')
    (hcount : before.count '\n' + 1 = number) :
    ∀ line ∈ numbered width number offset raws, StartsLine text line.number line.offset := by
  induction raws generalizing before number offset with
  | nil => simp [numbered]
  | cons raw raws ih =>
    intro line hl
    rcases List.mem_cons.1 hl with rfl | hl
    · exact ⟨before, _, htext, hoffset, hlast, hcount⟩
    · rcases raws with _ | ⟨next, raws⟩
      · simp [numbered] at hl
      · have hzero : raw.count '\n' = 0 := List.count_eq_zero.2 (hraw raw (by simp))
        refine ih (before ++ (raw ++ ['\n'])) (fun r hr => hraw r (by simp [hr])) ?_ ?_ ?_ ?_ line hl
        · rw [htext, List.intercalate_cons_cons]
          simp only [List.append_assoc]
        · have hnewline : Text.byteSize ['\n'] = 1 := by decide
          rw [Text.byteSize_append, Text.byteSize_append, hoffset, hnewline, Nat.add_assoc]
        · right; simp
        · rw [List.count_append, List.count_append, hzero]
          simp only [List.count_singleton_self]
          omega

theorem run_numbered (width : Nat) (cs : List Char) : Run cs (numbered width 1 0 (Text.splitAt '\n' cs)) := by
  have hraw : ∀ raw ∈ Text.splitAt '\n' cs, '\n' ∉ raw := fun raw h => Text.notMem_of_mem_splitAt h
  refine ⟨numbered_follow _ _ _ _, ?_, ?_, ?_⟩
  · intro line hl
    obtain ⟨raw, -, n, k, rfl⟩ := exists_raw_of_mem_numbered hl
    exact solid_of_trimEnd n k _
  · intro line hl
    obtain ⟨raw, hr, n, k, rfl⟩ := exists_raw_of_mem_numbered hl
    exact newline_notMem_text (hraw raw hr)
  · exact numbered_starts [] hraw (Text.intercalate_splitAt '\n' cs).symm rfl (.inl rfl) rfl

/-- The lines of a text as they stand in it. A newline at the end starts no further line. -/
def rawLines (cs : List Char) : List (List Char) :=
  if cs.getLast? = some '\n' then (Text.splitAt '\n' cs).dropLast else Text.splitAt '\n' cs

private theorem numbered_dropLast (width number offset : Nat) (raws : List (List Char)) :
    numbered width number offset raws.dropLast = (numbered width number offset raws).dropLast := by
  induction raws generalizing number offset with
  | nil => rfl
  | cons raw raws ih =>
    rcases raws with _ | ⟨next, raws⟩
    · rfl
    · rw [List.dropLast_cons_cons, numbered, ih]
      rfl

theorem split_eq_numbered (width : Nat) (cs : List Char) : split width cs = numbered width 1 0 (rawLines cs) := by
  unfold split rawLines
  dsimp only
  split
  · exact (numbered_dropLast _ _ _ _).symm
  · rfl

theorem run_split (width : Nat) (cs : List Char) : Run cs (split width cs) := by
  unfold split
  dsimp only
  split
  · exact (run_numbered width cs).part (List.dropLast_prefix _).isInfix
  · exact run_numbered width cs

/-- No white space stands at the end. -/
def Trimmed (line : Line) : Prop := ∀ c ∈ line.text.getLast?, Text.isBlank c = false

theorem trimmed_of_mem_split {width : Nat} {cs : List Char} {line : Line} (h : line ∈ split width cs) :
    line.Trimmed := by
  rw [split_eq_numbered] at h
  obtain ⟨raw, -, n, k, rfl⟩ := exists_raw_of_mem_numbered h
  exact fun c hc => Text.isBlank_getLast?_trimEnd hc

end Line

end LispDoc
