import LispDoc.Docstring.Line
import Mathlib.Data.List.Forall2
import Mathlib.Order.Bounds.Basic

/-!
# Tab stops

Once its tabs are expanded, a text holds a run of characters for each of its characters: spaces up to the next tab stop
for a tab, and the character itself otherwise. `Line.Fills` says so of a list of runs and leaves only one such list
(`Line.Fills.unique`). The runs joined are the expanded text, and the runs that stand for no tab are the text without
its tabs (`Line.fills_expandTabs`).

The column matters only by its distance to the tab stop before it (`Line.expandTabsFrom_congr`). So what follows a text
that ends at a tab stop is expanded as if it stood alone (`Line.expandTabs_append`).
-/

namespace LispDoc

namespace Line

/-! ### Characters of an expanded text -/

theorem mem_expandTabsFrom {width column : Nat} {c : Char} {cs : List Char}
    (h : c ∈ expandTabsFrom width column cs) : c = ' ' ∨ c ∈ cs := by
  induction cs generalizing column with
  | nil => simp [expandTabsFrom] at h
  | cons d cs ih =>
    rw [expandTabsFrom] at h
    split at h
    · rcases List.mem_append.1 h with h | h
      · exact .inl (List.eq_of_mem_replicate h)
      · exact (ih h).imp_right (List.mem_cons_of_mem _)
    · rcases List.mem_cons.1 h with rfl | h
      · exact .inr (by simp)
      · exact (ih h).imp_right (List.mem_cons_of_mem _)

theorem expandTabsFrom_of_notMem {cs : List Char} (h : '\t' ∉ cs) (width column : Nat) :
    expandTabsFrom width column cs = cs := by
  induction cs generalizing column with
  | nil => rfl
  | cons c cs ih =>
    rw [List.mem_cons, not_or] at h
    rw [expandTabsFrom, if_neg (Ne.symm h.1), ih h.2]

theorem tab_notMem_expandTabsFrom (width column : Nat) (cs : List Char) : '\t' ∉ expandTabsFrom width column cs := by
  induction cs generalizing column with
  | nil => simp [expandTabsFrom]
  | cons c cs ih =>
    rw [expandTabsFrom]
    split
    · rw [List.mem_append, not_or]
      exact ⟨by simp, ih _⟩
    · rename_i hc
      rw [List.mem_cons, not_or]
      exact ⟨Ne.symm hc, ih _⟩

/-! ### One text behind another -/

theorem expandTabsFrom_append (width column : Nat) (as bs : List Char) :
    expandTabsFrom width column (as ++ bs) = expandTabsFrom width column as ++
      expandTabsFrom width (column + (expandTabsFrom width column as).length) bs := by
  induction as generalizing column with
  | nil => rfl
  | cons c as ih =>
    rw [List.cons_append, expandTabsFrom, expandTabsFrom]
    split
    · rw [ih, List.append_assoc, List.length_append, List.length_replicate, Nat.add_assoc]
    · rw [ih, List.cons_append, List.length_cons, Nat.add_assoc, Nat.add_comm 1]

/-- Columns as far behind a tab stop as each other make no difference. -/
theorem expandTabsFrom_congr {width a b : Nat} (h : a % width = b % width) (cs : List Char) :
    expandTabsFrom width a cs = expandTabsFrom width b cs := by
  induction cs generalizing a b with
  | nil => rfl
  | cons c cs ih =>
    have hstep : ∀ n, (a + n) % width = (b + n) % width := by
      intro n
      rw [Nat.add_mod, h, ← Nat.add_mod]
    rw [expandTabsFrom, expandTabsFrom]
    split
    · rw [h, ih (hstep _)]
    · rw [ih (hstep 1)]

theorem expandTabs_append {width : Nat} {as : List Char} (h : max width 1 ∣ (expandTabs width as).length)
    (bs : List Char) : expandTabs width (as ++ bs) = expandTabs width as ++ expandTabs width bs := by
  have hcolumn : (0 + (expandTabs width as).length) % max width 1 = 0 % max width 1 := by
    rw [Nat.zero_add, Nat.mod_eq_zero_of_dvd h, Nat.zero_mod]
  have hrest := expandTabsFrom_congr hcolumn bs
  rw [expandTabs, expandTabsFrom_append]
  exact congrArg (expandTabs width as ++ ·) hrest

/-! ### What is written for each character -/

/-- The tab stops behind a column. -/
def stopsAfter (width column : Nat) : Set Nat := {stop | width ∣ stop ∧ column < stop}

/-- The run is what a character becomes: spaces if it is a tab, and the character itself otherwise. -/
def StandsFor (c : Char) (run : List Char) : Prop := if c = '\t' then ∀ d ∈ run, d = ' ' else run = [c]

/-- The column in front of run `i`, if the first run starts at `column`. -/
def columnAt (column : Nat) (runs : List (List Char)) (i : Nat) : Nat := column + (runs.take i).flatten.length

/-- The runs stand for the characters of a text that starts at `column`. -/
structure Fills (width column : Nat) (text : List Char) (runs : List (List Char)) : Prop where
  stand : List.Forall₂ StandsFor text runs
  /-- the spaces for a tab end at the next tab stop -/
  stops : ∀ i, text[i]? = some '\t' →
    IsLeast (stopsAfter width (columnAt column runs i)) (columnAt column runs (i + 1))

/-- The runs without those that stand for tabs. -/
def copied (text : List Char) (runs : List (List Char)) : List Char :=
  ((text.zip runs).filter (·.1 != '\t')).flatMap (·.2)

private theorem isLeast_stopsAfter {width : Nat} (hw : 0 < width) (column : Nat) :
    IsLeast (stopsAfter width column) (column + (width - column % width)) := by
  have hmod : column % width < width := Nat.mod_lt column hw
  have hdiv : width * (column / width) + column % width = column := Nat.div_add_mod column width
  have hstop : column + (width - column % width) = width * (column / width + 1) := by
    rw [Nat.mul_add]
    omega
  constructor
  · exact ⟨⟨_, hstop⟩, by omega⟩
  -- the last stop up to the column has the number `column / width`, and a stop behind it a greater one
  · rintro stop ⟨⟨q, rfl⟩, hlt⟩
    have hq : column / width < q := Nat.div_lt_of_lt_mul hlt
    rw [hstop]
    exact Nat.mul_le_mul_left width hq

theorem columnAt_zero (column : Nat) (runs : List (List Char)) : columnAt column runs 0 = column := by
  simp [columnAt]

theorem columnAt_succ (column : Nat) (run : List Char) (runs : List (List Char)) (i : Nat) :
    columnAt column (run :: runs) (i + 1) = columnAt (column + run.length) runs i := by
  rw [columnAt, columnAt, List.take_succ_cons, List.flatten_cons, List.length_append, Nat.add_assoc]

private theorem fills_nil (width column : Nat) : Fills width column [] [] := ⟨.nil, by simp⟩

private theorem fills_cons_iff {width column : Nat} {c : Char} {text run : List Char} {runs : List (List Char)} :
    Fills width column (c :: text) (run :: runs) ↔
      StandsFor c run ∧ (c = '\t' → IsLeast (stopsAfter width column) (column + run.length)) ∧
        Fills width (column + run.length) text runs := by
  constructor
  · rintro ⟨hstand, hstops⟩
    obtain ⟨hfirst, hrest⟩ := List.forall₂_cons.1 hstand
    refine ⟨hfirst, ?_, hrest, ?_⟩
    · intro hc
      have h := hstops 0 (by rw [hc]; rfl)
      rwa [columnAt_succ, columnAt_zero, columnAt_zero] at h
    · intro i hi
      have h := hstops (i + 1) hi
      rwa [columnAt_succ, columnAt_succ] at h
  · rintro ⟨hfirst, hstop, hrest⟩
    refine ⟨.cons hfirst hrest.stand, ?_⟩
    intro i hi
    cases i with
    | zero =>
      rw [columnAt_succ, columnAt_zero, columnAt_zero]
      exact hstop (Option.some.inj hi)
    | succ i =>
      rw [columnAt_succ, columnAt_succ]
      exact hrest.stops i hi

private theorem exists_fills {width : Nat} (hw : 0 < width) (column : Nat) (text : List Char) :
    ∃ runs, Fills width column text runs ∧ runs.flatten = expandTabsFrom width column text := by
  induction text generalizing column with
  | nil => exact ⟨[], fills_nil width column, rfl⟩
  | cons c text ih =>
    by_cases hc : c = '\t'
    · obtain ⟨runs, hfills, hjoin⟩ := ih (column + (width - column % width))
      refine ⟨List.replicate (width - column % width) ' ' :: runs, fills_cons_iff.2 ⟨?_, ?_, ?_⟩, ?_⟩
      · rw [StandsFor, if_pos hc]
        exact fun d hd => List.eq_of_mem_replicate hd
      · intro _
        rw [List.length_replicate]
        exact isLeast_stopsAfter hw column
      · rwa [List.length_replicate]
      · rw [List.flatten_cons, hjoin, expandTabsFrom, if_pos hc]
    · obtain ⟨runs, hfills, hjoin⟩ := ih (column + 1)
      refine ⟨[c] :: runs, fills_cons_iff.2 ⟨?_, fun h => absurd h hc, hfills⟩, ?_⟩
      · rw [StandsFor, if_neg hc]
      · rw [List.flatten_cons, hjoin, expandTabsFrom, if_neg hc]
        rfl

theorem Fills.unique {width column : Nat} {text : List Char} {runs others : List (List Char)}
    (h : Fills width column text runs) (h' : Fills width column text others) : runs = others := by
  induction text generalizing column runs others with
  | nil =>
    rw [List.forall₂_nil_left_iff.1 h.stand, List.forall₂_nil_left_iff.1 h'.stand]
  | cons c text ih =>
    obtain ⟨run, runs, -, -, rfl⟩ := List.forall₂_cons_left_iff.1 h.stand
    obtain ⟨other, others, -, -, rfl⟩ := List.forall₂_cons_left_iff.1 h'.stand
    obtain ⟨hfirst, hstop, hrest⟩ := fills_cons_iff.1 h
    obtain ⟨hfirst', hstop', hrest'⟩ := fills_cons_iff.1 h'
    -- a run of spaces is known by the columns at its ends, and any other run by its character
    have hrun : run = other := by
      by_cases hc : c = '\t'
      · rw [StandsFor, if_pos hc] at hfirst hfirst'
        have hend := (hstop hc).unique (hstop' hc)
        have hlength : run.length = other.length := by omega
        rw [List.eq_replicate_of_mem hfirst, List.eq_replicate_of_mem hfirst', hlength]
      · rw [StandsFor, if_neg hc] at hfirst hfirst'
        rw [hfirst, hfirst']
    subst hrun
    rw [ih hrest hrest']

private theorem copied_eq_filter {text : List Char} {runs : List (List Char)} (h : List.Forall₂ StandsFor text runs) :
    copied text runs = text.filter (· != '\t') := by
  induction h with
  | nil => rfl
  | @cons c run text runs hfirst _ ih =>
    rw [copied] at ih
    by_cases hc : c = '\t'
    · simp [copied, hc, ih]
    · rw [StandsFor, if_neg hc] at hfirst
      simp [copied, hc, hfirst, ih]

/-- An expanded text has no tab left. There is one way to cut it into a run for each character of the text so that a
tab has become spaces and every other character is itself, and the column behind each tab is the least multiple of the
width that is greater than the column in front of it. Without the runs that stand for tabs it is the text without its
tabs. Expanding it again changes nothing, and what stands behind a text that is expanded up to a tab stop is expanded
on its own. -/
theorem fills_expandTabs (width : Nat) (text : List Char) :
    '\t' ∉ expandTabs width text ∧
    (∃! runs, Fills (max width 1) 0 text runs ∧ runs.flatten = expandTabs width text ∧
      copied text runs = text.filter (· != '\t')) ∧
    expandTabs width (expandTabs width text) = expandTabs width text ∧
    ∀ more, max width 1 ∣ (expandTabs width text).length →
      expandTabs width (text ++ more) = expandTabs width text ++ expandTabs width more := by
  have hwidth : 0 < max width 1 := by omega
  have htab : '\t' ∉ expandTabs width text := tab_notMem_expandTabsFrom _ _ text
  obtain ⟨runs, hfills, hjoin⟩ := exists_fills hwidth 0 text
  refine ⟨htab, ⟨runs, ⟨hfills, hjoin, copied_eq_filter hfills.stand⟩, ?_⟩, ?_, ?_⟩
  · rintro others ⟨hothers, -, -⟩
    exact hothers.unique hfills
  · exact expandTabsFrom_of_notMem htab _ _
  · exact fun more hdvd => expandTabs_append hdvd more

/-- Two words that are filled up to the eighth column, and a tab behind them. -/
theorem fills_expandTabs_columns :
    max 4 1 ∣ (expandTabs 4 "é\tbc\t".toList).length ∧
      expandTabs 4 ("é\tbc\t".toList ++ "\td".toList) = expandTabs 4 "é\tbc\t".toList ++ "    d".toList := by
  have hdvd : max 4 1 ∣ (expandTabs 4 "é\tbc\t".toList).length := by decide
  have hmore : expandTabs 4 "\td".toList = "    d".toList := by decide
  rw [← hmore]
  exact ⟨hdvd, (fills_expandTabs 4 "é\tbc\t".toList).2.2.2 _ hdvd⟩

end Line

end LispDoc
