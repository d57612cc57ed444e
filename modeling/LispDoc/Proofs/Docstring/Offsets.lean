import LispDoc.Proofs.Docstring.Lines
import Mathlib.Data.List.DropRight
import Mathlib.Data.List.Forall2

/-!
# Lines point back into the docstring

The offset of a line is a place in the docstring from which the line can be read again: up to the next newline stands
what the line was made of (`Line.slice?`), and these slices joined by newlines are the docstring. The text of a line is
its slice in normal form, with tabs expanded and without white space at the end, so that the texts of the lines, each
with a newline behind it, are cut into the same lines once more (`Line.slices_split`).
-/

namespace LispDoc

namespace Text

/-- The text behind its first `n` bytes, if these end between two characters. -/
def dropBytes? (n : Nat) : List Char → Option (List Char)
  | [] => if n = 0 then some [] else none
  | c :: cs =>
    if n = 0 then some (c :: cs)
    else if c.utf8Size ≤ n then dropBytes? (n - c.utf8Size) cs
    else none

private theorem dropBytes?_byteSize (before after : List Char) :
    dropBytes? (byteSize before) (before ++ after) = some after := by
  induction before with
  | nil => cases after <;> simp [dropBytes?]
  | cons c before ih =>
    have hpos : 0 < c.utf8Size := c.utf8Size_pos
    have hne : ¬ byteSize (c :: before) = 0 := by
      rw [byteSize_cons]
      omega
    have hle : c.utf8Size ≤ byteSize (c :: before) := by
      rw [byteSize_cons]
      omega
    have hrest : byteSize (c :: before) - c.utf8Size = byteSize before := by
      rw [byteSize_cons]
      omega
    rw [List.cons_append, dropBytes?, if_neg hne, if_pos hle, hrest, ih]

private theorem trimEnd_trimEnd (cs : List Char) : trimEnd (trimEnd cs) = trimEnd cs :=
  List.rdropWhile_idempotent isBlank cs

end Text

namespace Line

/-- What stands in a text from the byte `offset` on, up to the next newline or the end. -/
def slice? (text : List Char) (offset : Nat) : Option (List Char) :=
  (Text.dropBytes? offset text).map (·.takeWhile (· != '\n'))

private theorem slice?_byteSize (before : List Char) {raw after : List Char} (hraw : '\n' ∉ raw)
    (hafter : ∀ c ∈ after.head?, c = '\n') :
    slice? (before ++ (raw ++ after)) (Text.byteSize before) = some raw := by
  have hall : ∀ c ∈ raw, (c != '\n') = true := by
    intro c hc
    have hne : c ≠ '\n' := fun he => hraw (he ▸ hc)
    simpa using hne
  have hstop : after.takeWhile (· != '\n') = [] := by
    cases after with
    | nil => rfl
    | cons c after => simp [hafter c rfl]
  rw [slice?, Text.dropBytes?_byteSize, Option.map_some, List.takeWhile_append_of_pos hall, hstop, List.append_nil]

/-! ### The lines as they stand in the text -/

private theorem splitAt_concat_newline (cs : List Char) :
    Text.splitAt '\n' (cs ++ ['\n']) = Text.splitAt '\n' cs ++ [[]] := by
  rw [Text.splitAt_append]
  rfl

private theorem rawLines_concat_newline (cs : List Char) : rawLines (cs ++ ['\n']) = Text.splitAt '\n' cs := by
  have hlast : (cs ++ ['\n']).getLast? = some '\n' := by simp
  rw [rawLines, if_pos hlast, splitAt_concat_newline, List.dropLast_concat]

/-- A text either ends in a newline behind its last line or does not. -/
private theorem rawLines_cases (cs : List Char) :
    (∃ front, cs = front ++ ['\n'] ∧ rawLines cs = Text.splitAt '\n' front) ∨
      (cs.getLast? ≠ some '\n' ∧ rawLines cs = Text.splitAt '\n' cs) := by
  by_cases h : cs.getLast? = some '\n'
  · obtain ⟨front, hfront⟩ := List.getLast?_eq_some_iff.1 h
    exact .inl ⟨front, hfront, by rw [hfront, rawLines_concat_newline]⟩
  · exact .inr ⟨h, by rw [rawLines, if_neg h]⟩

private theorem rawLines_ne_nil (cs : List Char) : rawLines cs ≠ [] := by
  rcases rawLines_cases cs with ⟨front, -, h⟩ | ⟨-, h⟩
  · rw [h]
    exact Text.splitAt_ne_nil '\n' front
  · rw [h]
    exact Text.splitAt_ne_nil '\n' cs

private theorem newline_notMem_rawLines {cs raw : List Char} (h : raw ∈ rawLines cs) : '\n' ∉ raw := by
  rcases rawLines_cases cs with ⟨front, -, he⟩ | ⟨-, he⟩
  · exact Text.notMem_of_mem_splitAt (he ▸ h)
  · exact Text.notMem_of_mem_splitAt (he ▸ h)

private theorem intercalate_rawLines (cs : List Char) :
    List.intercalate ['\n'] (rawLines cs) ++ (if cs.getLast? = some '\n' then ['\n'] else []) = cs := by
  rcases rawLines_cases cs with ⟨front, rfl, h⟩ | ⟨hlast, h⟩
  · rw [h, Text.intercalate_splitAt, if_pos (by simp)]
  · rw [h, Text.intercalate_splitAt, if_neg hlast, List.append_nil]

/-! ### Numbers, texts and offsets -/

private theorem map_number_numbered (width number offset : Nat) (raws : List (List Char)) :
    (numbered width number offset raws).map (·.number) = List.range' number raws.length := by
  induction raws generalizing number offset with
  | nil => rfl
  | cons raw raws ih => rw [numbered, List.map_cons, ih, List.length_cons, List.range'_succ]

private theorem map_text_numbered (width number offset : Nat) (raws : List (List Char)) :
    (numbered width number offset raws).map (·.text) = raws.map fun raw => Text.trimEnd (expandTabs width raw) := by
  induction raws generalizing number offset with
  | nil => rfl
  | cons raw raws ih => rw [numbered, List.map_cons, ih, List.map_cons]

/-- Behind what has been numbered already, `before`, every line is the slice at its offset. -/
private theorem slices_numbered {text tail : List Char} (before : List Char) {width number : Nat}
    {raws : List (List Char)} (hraw : ∀ raw ∈ raws, '\n' ∉ raw) (htail : ∀ c ∈ tail.head?, c = '\n')
    (htext : text = before ++ (List.intercalate ['\n'] raws ++ tail)) :
    List.Forall₂ (fun line slice => slice? text line.offset = some slice ∧
      line.text = Text.trimEnd (expandTabs width slice) ∧
      ∃ blanks, (∀ c ∈ blanks, Text.isBlank c = true) ∧ line.text ++ blanks = expandTabs width slice)
      (numbered width number (Text.byteSize before) raws) raws := by
  induction raws generalizing before number with
  | nil => exact .nil
  | cons raw raws ih =>
    have hfirst : '\n' ∉ raw := hraw raw (by simp)
    rcases raws with _ | ⟨next, raws⟩
    · rw [List.intercalate_singleton] at htext
      refine .cons ⟨?_, rfl, Text.exists_trimEnd_append _⟩ .nil
      rw [htext]
      exact slice?_byteSize before hfirst htail
    · have hsplit : text = before ++ (raw ++ '\n' :: (List.intercalate ['\n'] (next :: raws) ++ tail)) := by
        rw [htext, List.intercalate_cons_cons]
        simp
      -- the next line starts behind this one and its newline
      have hoffset : Text.byteSize before + Text.byteSize raw + 1 = Text.byteSize (before ++ (raw ++ ['\n'])) := by
        have hnewline : Text.byteSize ['\n'] = 1 := by decide
        rw [Text.byteSize_append, Text.byteSize_append, hnewline]
        omega
      refine .cons ⟨?_, rfl, Text.exists_trimEnd_append _⟩ ?_
      · rw [hsplit]
        exact slice?_byteSize before hfirst (by simp)
      · rw [hoffset]
        refine ih (before ++ (raw ++ ['\n'])) (fun r hr => hraw r (by simp [hr])) ?_
        rw [hsplit]
        simp

/-! ### Cutting the lines again -/

private theorem tab_notMem_text (width : Nat) (raw : List Char) : '\t' ∉ Text.trimEnd (expandTabs width raw) := by
  intro h
  exact tab_notMem_expandTabsFrom _ _ _ ((Text.trimEnd_prefix _).subset h)

/-- Bringing a text into normal form again changes nothing. -/
private theorem trimEnd_expandTabs_idem (width : Nat) (raw : List Char) :
    Text.trimEnd (expandTabs width (Text.trimEnd (expandTabs width raw))) = Text.trimEnd (expandTabs width raw) := by
  have htab := tab_notMem_text width raw
  have hexpand : expandTabs width (Text.trimEnd (expandTabs width raw)) = Text.trimEnd (expandTabs width raw) :=
    expandTabsFrom_of_notMem htab _ _
  rw [hexpand, Text.trimEnd_trimEnd]

private theorem rawLines_flatMap {texts : List (List Char)} (hne : texts ≠ []) (h : ∀ text ∈ texts, '\n' ∉ text) :
    rawLines (texts.flatMap (· ++ ['\n'])) = texts := by
  obtain ⟨front, last, rfl⟩ := List.eq_nil_or_concat texts |>.resolve_left hne
  have hlast : ((front ++ [last]).flatMap (· ++ ['\n'])).getLast? = some '\n' := by
    rw [List.flatMap_append]
    simp
  rw [List.concat_eq_append] at h ⊢
  rw [rawLines, if_pos hlast, Text.splitAt_flatMap h, List.dropLast_concat]

/-- The lines of the texts of some lines have the same texts. -/
private theorem map_text_split_lines (width : Nat) (text : List Char) :
    (split width ((split width text).flatMap (·.text ++ ['\n']))).map (·.text) = (split width text).map (·.text) := by
  have htexts : (split width text).map (·.text) =
      (rawLines text).map fun raw => Text.trimEnd (expandTabs width raw) := by
    rw [split_eq_numbered, map_text_numbered]
  have hjoined : (split width text).flatMap (·.text ++ ['\n']) =
      ((rawLines text).map fun raw => Text.trimEnd (expandTabs width raw)).flatMap (· ++ ['\n']) := by
    rw [← htexts, List.flatMap_map]
  have hraw : rawLines ((split width text).flatMap (·.text ++ ['\n'])) =
      (rawLines text).map fun raw => Text.trimEnd (expandTabs width raw) := by
    rw [hjoined]
    refine rawLines_flatMap (by simp [rawLines_ne_nil]) ?_
    intro t ht
    obtain ⟨raw, hr, rfl⟩ := List.mem_map.1 ht
    exact newline_notMem_text (newline_notMem_rawLines hr)
  rw [htexts, split_eq_numbered, map_text_numbered, hraw, List.map_map]
  exact List.map_congr_left fun raw _ => trimEnd_expandTabs_idem width raw

private theorem map_number_split (width : Nat) (text : List Char) :
    (split width text).map (·.number) = List.range' 1 (split width text).length := by
  have hlength : (split width text).length = (rawLines text).length := by
    have h := congrArg List.length (map_text_numbered width 1 0 (rawLines text))
    rwa [← split_eq_numbered, List.length_map, List.length_map] at h
  rw [hlength, split_eq_numbered, map_number_numbered]

/-- The lines of a text are numbered from one. The slices of the text from their offsets to the next newline, joined by
newlines and with the newline that the text may end in, are the text, and the text of a line is its slice with tabs
expanded and the white space at the end, no more and no less, taken off. It holds no tab, and its first character tells
its kind. The texts of the lines, each with a newline behind it, have lines with the same numbers and texts. -/
theorem slices_split (width : Nat) (text : List Char) :
    ((split width text).map (·.number) = List.range' 1 (split width text).length) ∧
    (∃ slices, List.intercalate ['\n'] slices ++ (if text.getLast? = some '\n' then ['\n'] else []) = text ∧
      List.Forall₂ (fun line slice => slice? text line.offset = some slice ∧
        line.text = Text.trimEnd (expandTabs width slice) ∧
        ∃ blanks, (∀ c ∈ blanks, Text.isBlank c = true) ∧ line.text ++ blanks = expandTabs width slice)
        (split width text) slices) ∧
    (∀ line ∈ split width text, line.Trimmed ∧ '\t' ∉ line.text ∧
      (line.isBlank = true ↔ line.text = []) ∧
      (line.isIndented = true ↔ line.text.head? = some ' ') ∧
      (line.isText = true ↔ ∃ c cs, line.text = c :: cs ∧ c ≠ ' ')) ∧
    (split width ((split width text).flatMap (·.text ++ ['\n']))).map (fun line => (line.number, line.text)) =
      (split width text).map fun line => (line.number, line.text) := by
  have hnumbers := map_number_split width
  have hjoin := intercalate_rawLines text
  refine ⟨hnumbers text, ⟨rawLines text, hjoin, ?_⟩, ?_, ?_⟩
  · rw [split_eq_numbered]
    refine slices_numbered [] (fun raw hr => newline_notMem_rawLines hr) ?_ hjoin.symm
    split <;> simp
  · intro line hl
    have htrimmed := trimmed_of_mem_split hl
    rw [split_eq_numbered] at hl
    obtain ⟨raw, -, n, k, rfl⟩ := exists_raw_of_mem_numbered hl
    exact ⟨htrimmed, tab_notMem_text width raw, Segment.isBlank_iff _, Segment.isIndented_iff _, Segment.isText_iff _⟩
  · -- both lists are numbered from one and have the same texts
    have htexts := map_text_split_lines width text
    have hlength := congrArg List.length htexts
    rw [List.length_map, List.length_map] at hlength
    have hzip : ∀ lines : List Line, lines.map (fun line => (line.number, line.text)) =
        (lines.map (·.number)).zip (lines.map (·.text)) := fun lines => by rw [List.zip_map']
    rw [hzip, hzip, hnumbers, hnumbers, htexts, hlength]

end Line

end LispDoc
