import LispDoc.Text.Blank

/-!
# Cutting and trimming texts

Cutting at a separator undoes joining with it, as long as the pieces do not hold the separator
(`Text.splitAt_intercalate`), and the pieces of a cut never do (`Text.notMem_of_mem_splitAt`). Words contain no white
space, and so no newline. Trimming at the end leaves a beginning of the text that does not end in white space.
-/

namespace LispDoc.Text

/-! ### Pieces -/

theorem splitAt_of_notMem {sep : Char} {piece : List Char} (h : sep ∉ piece) : splitAt sep piece = [piece] := by
  induction piece with
  | nil => rfl
  | cons c piece ih =>
    simp only [List.mem_cons, not_or] at h
    have hc : (c == sep) = false := by simpa using Ne.symm h.1
    simp [splitAt, hc, ih h.2]

theorem splitAt_append (sep : Char) (as bs : List Char) :
    splitAt sep (as ++ sep :: bs) = splitAt sep as ++ splitAt sep bs := by
  induction as with
  | nil => simp [splitAt]
  | cons c as ih =>
    rw [List.cons_append, splitAt, splitAt, ih]
    split
    · rfl
    · obtain ⟨piece, pieces, hs⟩ := List.exists_cons_of_ne_nil (splitAt_ne_nil sep as)
      rw [hs]
      rfl

private theorem splitAt_append_cons {sep : Char} {piece : List Char} (h : sep ∉ piece) (rest : List Char) :
    splitAt sep (piece ++ sep :: rest) = piece :: splitAt sep rest := by
  rw [splitAt_append, splitAt_of_notMem h]
  rfl

theorem length_splitAt (sep : Char) (cs : List Char) : (splitAt sep cs).length = cs.count sep + 1 := by
  induction cs with
  | nil => rfl
  | cons c cs ih =>
    rw [splitAt, List.count_cons]
    split
    · rw [List.length_cons, ih]
    · obtain ⟨piece, pieces, hs⟩ := List.exists_cons_of_ne_nil (splitAt_ne_nil sep cs)
      rw [hs] at ih ⊢
      exact ih

theorem notMem_of_mem_splitAt {sep : Char} {cs piece : List Char} (h : piece ∈ splitAt sep cs) : sep ∉ piece := by
  induction cs generalizing piece with
  | nil => simp only [splitAt, List.mem_singleton] at h; simp [h]
  | cons c cs ih =>
    simp only [splitAt] at h
    split at h
    · rcases List.mem_cons.1 h with rfl | h
      · simp
      · exact ih h
    · rename_i hc
      have hc : sep ≠ c := fun he => hc (by rw [he]; exact beq_self_eq_true c)
      cases hs : splitAt sep cs with
      | nil => exact absurd hs (splitAt_ne_nil sep cs)
      | cons p ps =>
        simp only [hs, List.mem_cons] at h
        rcases h with rfl | h
        · have hp : p ∈ splitAt sep cs := by simp [hs]
          simp [hc, ih hp]
        · exact ih (by simp [hs, h])

theorem mem_of_mem_splitAt {sep c : Char} {cs piece : List Char} (h : piece ∈ splitAt sep cs) (hc : c ∈ piece) :
    c ∈ cs := by
  induction cs generalizing piece with
  | nil =>
    rw [splitAt, List.mem_singleton] at h
    rwa [h] at hc
  | cons d cs ih =>
    rw [splitAt] at h
    split at h
    · rcases List.mem_cons.1 h with rfl | h
      · simp at hc
      · exact List.mem_cons_of_mem _ (ih h hc)
    · obtain ⟨first, rest, hs⟩ := List.exists_cons_of_ne_nil (splitAt_ne_nil sep cs)
      rw [hs] at h ih
      rcases List.mem_cons.1 h with rfl | h
      · rcases List.mem_cons.1 hc with rfl | hc
        · simp
        · exact List.mem_cons_of_mem _ (ih (by simp) hc)
      · exact List.mem_cons_of_mem _ (ih (by simp [h]) hc)

theorem splitAt_intercalate {sep : Char} {pieces : List (List Char)} (hne : pieces ≠ [])
    (h : ∀ piece ∈ pieces, sep ∉ piece) : splitAt sep (List.intercalate [sep] pieces) = pieces := by
  induction pieces with
  | nil => exact absurd rfl hne
  | cons piece pieces ih =>
    have hpiece := h piece (by simp)
    rcases pieces with _ | ⟨next, pieces⟩
    · simpa using splitAt_of_notMem hpiece
    · have hjoin : List.intercalate [sep] (piece :: next :: pieces) =
          piece ++ sep :: List.intercalate [sep] (next :: pieces) := by simp [List.intercalate_cons_cons]
      rw [hjoin, splitAt_append_cons hpiece, ih (by simp) fun p hp => h p (by simp [hp])]

theorem splitAt_flatMap {sep : Char} {pieces : List (List Char)} (h : ∀ piece ∈ pieces, sep ∉ piece) :
    splitAt sep (pieces.flatMap (· ++ [sep])) = pieces ++ [[]] := by
  induction pieces with
  | nil => rfl
  | cons piece pieces ih =>
    rw [List.flatMap_cons, List.append_assoc, List.singleton_append, splitAt_append_cons (h piece (by simp)),
      ih fun p hp => h p (by simp [hp]), List.cons_append]

theorem mem_intercalate_of_mem {sep piece : List Char} {pieces : List (List Char)} {c : Char} (hp : piece ∈ pieces)
    (hc : c ∈ piece) : c ∈ List.intercalate sep pieces := by
  induction pieces with
  | nil => cases hp
  | cons first pieces ih =>
    rcases pieces with _ | ⟨next, pieces⟩
    · obtain rfl := List.mem_singleton.1 hp
      simpa using hc
    · rw [List.intercalate_cons_cons, List.mem_append, List.mem_append]
      rcases List.mem_cons.1 hp with rfl | hp
      · exact .inl (.inl hc)
      · exact .inr (ih hp)

theorem mem_of_mem_intercalate {sep : List Char} {pieces : List (List Char)} {c : Char}
    (h : c ∈ List.intercalate sep pieces) : c ∈ sep ∨ ∃ piece ∈ pieces, c ∈ piece := by
  induction pieces with
  | nil => simp at h
  | cons first pieces ih =>
    rcases pieces with _ | ⟨next, pieces⟩
    · exact .inr ⟨first, by simp, by simpa using h⟩
    · rw [List.intercalate_cons_cons, List.mem_append, List.mem_append] at h
      rcases h with (h | h) | h
      · exact .inr ⟨first, by simp, h⟩
      · exact .inl h
      · rcases ih h with h | ⟨piece, hp, h⟩
        · exact .inl h
        · exact .inr ⟨piece, List.mem_cons_of_mem _ hp, h⟩

/-! ### Words -/

/-- Words contain no white space. -/
private theorem isBlank_of_mem_wordsAfter {before cs word : List Char} (hbefore : ∀ c ∈ before, isBlank c = false)
    (hw : word ∈ wordsAfter before cs) : ∀ c ∈ word, isBlank c = false := by
  induction cs generalizing before with
  | nil =>
    rw [wordsAfter] at hw
    split at hw
    · cases hw
    · obtain rfl := List.mem_singleton.1 hw
      exact fun c hc => hbefore c (List.mem_reverse.1 hc)
  | cons d cs ih =>
    rw [wordsAfter] at hw
    split at hw
    · split at hw
      · exact ih (by simp) hw
      · rcases List.mem_cons.1 hw with rfl | hw
        · exact fun c hc => hbefore c (List.mem_reverse.1 hc)
        · exact ih (by simp) hw
    · rename_i hd
      refine ih (List.forall_mem_cons.2 ⟨?_, hbefore⟩) hw
      simpa using hd

theorem newline_notMem_oneLine (text : String) : '\n' ∉ (oneLine text).toList := by
  intro h
  rw [oneLine, String.toList_ofList] at h
  rcases mem_of_mem_intercalate h with h | ⟨word, hw, h⟩
  · exact absurd h (by decide)
  · have hblank := isBlank_of_mem_wordsAfter (by simp) hw '\n' h
    exact absurd hblank (by decide)

/-! ### Trimming -/

theorem trimEnd_prefix (cs : List Char) : trimEnd cs <+: cs := by
  have h : (cs.reverse.dropWhile isBlank) <:+ cs.reverse := List.dropWhile_suffix _
  simpa [trimEnd] using List.reverse_prefix.2 h

/-- What is taken off at the end is white space. -/
theorem exists_trimEnd_append (cs : List Char) :
    ∃ blanks, (∀ c ∈ blanks, isBlank c = true) ∧ trimEnd cs ++ blanks = cs := by
  refine ⟨(cs.reverse.takeWhile isBlank).reverse, ?_, ?_⟩
  · intro c hc
    exact List.all_eq_true.1 List.all_takeWhile c (List.mem_reverse.1 hc)
  · rw [trimEnd, ← List.reverse_append, List.takeWhile_append_dropWhile, List.reverse_reverse]

theorem mem_of_mem_trim {c : Char} {cs : List Char} (h : c ∈ trim cs) : c ∈ cs := by
  have hend : trim cs <+: trimStart cs := trimEnd_prefix (trimStart cs)
  have hstart : trimStart cs <:+ cs := List.dropWhile_suffix isBlank
  exact hstart.subset (hend.subset h)

/-- What is left ends in no white space. -/
theorem isBlank_getLast?_trimEnd {cs : List Char} {c : Char} (h : (trimEnd cs).getLast? = some c) :
    isBlank c = false := by
  rw [trimEnd, List.getLast?_reverse] at h
  have := List.head?_dropWhile_not isBlank cs.reverse
  rw [h] at this
  simpa using this

end LispDoc.Text
