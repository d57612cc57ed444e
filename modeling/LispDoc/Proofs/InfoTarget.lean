import LispDoc.InfoTarget
import Mathlib.Data.List.Chain

/-!
# Reading Info targets

A target is a manual and a node, neither of them empty, and no closing parenthesis stands in the node but at its end
(`InfoTarget.WellFormed`). A text reads as such a target exactly if it is the written form of it, up to white space
(`InfoTarget.parse_eq_ok_iff`). Hence reading undoes writing for the targets that are well formed and for no others.

Where the manual ends can be told from the text: at the last parenthesis that closes something and that something
follows (`InfoTarget.ClosesAt`).
-/

namespace LispDoc

/-! ### Single spaces -/

namespace Text

/-- White space is spaces, and no two of them are neighbours. -/
def Collapsed (cs : List Char) : Prop :=
  (∀ c ∈ cs, isBlank c = true → c = ' ') ∧ cs.IsChain fun c d => c = ' ' → d ≠ ' '

private theorem collapsed_nil : Collapsed [] := ⟨by simp, .nil⟩

private theorem collapsed_cons {c : Char} {cs : List Char} :
    Collapsed (c :: cs) ↔ (isBlank c = true → c = ' ' ∧ cs.head? ≠ some ' ') ∧ Collapsed cs := by
  have hspace : isBlank ' ' = true := by decide
  unfold Collapsed
  rw [List.forall_mem_cons, List.isChain_cons]
  constructor
  · rintro ⟨⟨hc, hcs⟩, hnext, hchain⟩
    exact ⟨fun hb => ⟨hc hb, fun hhead => hnext ' ' hhead (hc hb) rfl⟩, hcs, hchain⟩
  · rintro ⟨hc, hcs, hchain⟩
    refine ⟨⟨fun hb => (hc hb).1, hcs⟩, ?_, hchain⟩
    rintro d hd rfl rfl
    exact (hc hspace).2 hd

/-- Collapsing leaves single spaces, and none in front after white space. -/
private theorem collapsed_collapseAfter (after : Bool) (cs : List Char) :
    Collapsed (collapseAfter after cs) ∧ (after = true → (collapseAfter after cs).head? ≠ some ' ') := by
  induction cs generalizing after with
  | nil => simp [collapseAfter, collapsed_nil]
  | cons c cs ih =>
    unfold collapseAfter
    by_cases hc : isBlank c = true
    · rw [if_pos hc]
      cases after with
      | true => exact ih true
      | false =>
        obtain ⟨hrest, hhead⟩ := ih true
        exact ⟨collapsed_cons.2 ⟨fun _ => ⟨rfl, hhead rfl⟩, hrest⟩, by simp⟩
    · rw [if_neg hc]
      refine ⟨collapsed_cons.2 ⟨fun hb => absurd hb hc, (ih false).1⟩, fun _ hhead => hc ?_⟩
      obtain rfl : c = ' ' := by simpa using hhead
      decide

private theorem collapseAfter_of_collapsed {after : Bool} {cs : List Char} (h : Collapsed cs)
    (hhead : after = true → cs.head? ≠ some ' ') : collapseAfter after cs = cs := by
  induction cs generalizing after with
  | nil => rfl
  | cons c cs ih =>
    rw [collapsed_cons] at h
    unfold collapseAfter
    by_cases hc : isBlank c = true
    · obtain ⟨rfl, hnext⟩ := h.1 hc
      cases after with
      | true => exact absurd rfl (hhead rfl)
      | false => rw [if_pos hc, if_neg Bool.false_ne_true, ih h.2 fun _ => hnext]
    · rw [if_neg hc, ih h.2 (by simp)]

end Text

namespace InfoTarget

/-! ### The last closing parenthesis -/

/-- A parenthesis closes at the place `i`: it is not the second character, and something follows it. -/
def ClosesAt (cs : List Char) (i : Nat) : Prop := 2 ≤ i ∧ cs[i]? = some ')' ∧ i + 1 < cs.length

theorem splitLast?_eq_none_iff {cs : List Char} : splitLast? cs = none ↔ ')' ∉ cs.dropLast := by
  induction cs with
  | nil => simp [splitLast?]
  | cons c cs ih =>
    unfold splitLast?
    rcases cs with _ | ⟨d, cs⟩
    · simp [splitLast?]
    · rw [List.dropLast_cons_of_ne_nil (List.cons_ne_nil d cs), List.mem_cons, not_or, ← ih]
      cases splitLast? (d :: cs) with
      | some parts => simp
      | none => simp [eq_comm]

/-- The text is cut at its last closing parenthesis that something follows. -/
theorem splitLast?_eq_some_iff {cs before after : List Char} :
    splitLast? cs = some (before, after) ↔ cs = before ++ ')' :: after ∧ after ≠ [] ∧ ')' ∉ after.dropLast := by
  induction cs generalizing before with
  | nil => simp [splitLast?]
  | cons c cs ih =>
    unfold splitLast?
    cases hs : splitLast? cs with
    | some parts =>
      obtain ⟨front, back⟩ := parts
      -- there is a later parenthesis, so that the cut is not here
      have hmem : ')' ∈ cs.dropLast := by
        refine Decidable.byContradiction fun hnot => ?_
        rw [splitLast?_eq_none_iff.2 hnot] at hs
        cases hs
      constructor
      · intro h
        obtain ⟨rfl, rfl⟩ := Prod.mk.inj (Option.some.inj h)
        obtain ⟨hcs, hrest⟩ := ih.1 hs
        exact ⟨by rw [hcs]; rfl, hrest⟩
      · rintro ⟨hcs, hne, hlast⟩
        rcases before with _ | ⟨b, before⟩
        · obtain ⟨rfl, rfl⟩ := List.cons.inj hcs
          exact absurd hmem hlast
        · obtain ⟨rfl, htail⟩ := List.cons.inj hcs
          have hfound := ih.2 ⟨htail, hne, hlast⟩
          rw [hs] at hfound
          obtain ⟨rfl, rfl⟩ := Prod.mk.inj (Option.some.inj hfound)
          rfl
    | none =>
      have hlast := splitLast?_eq_none_iff.1 hs
      constructor
      · intro h
        simp only [Bool.and_eq_true, decide_eq_true_eq, Bool.not_eq_true', List.isEmpty_eq_false_iff,
          Option.ite_none_right_eq_some, Option.some.injEq, Prod.mk.injEq] at h
        obtain ⟨⟨rfl, hne⟩, rfl, rfl⟩ := h
        exact ⟨rfl, hne, hlast⟩
      · rintro ⟨hcs, hne, hafter⟩
        rcases before with _ | ⟨b, before⟩
        · obtain ⟨rfl, rfl⟩ := List.cons.inj hcs
          simp [hne]
        · obtain ⟨rfl, htail⟩ := List.cons.inj hcs
          rw [ih.2 ⟨htail, hne, hafter⟩] at hs
          cases hs

theorem split?_eq_some_iff {cs manual node : List Char} :
    split? cs = some (manual, node) ↔
      cs = '(' :: (manual ++ ')' :: node) ∧ manual ≠ [] ∧ node ≠ [] ∧ ')' ∉ node.dropLast := by
  unfold split?
  split
  · rename_i rest
    rw [Option.filter_eq_some_iff, splitLast?_eq_some_iff, List.cons.injEq]
    simp only [true_and, Bool.not_eq_true', List.isEmpty_eq_false_iff]
    constructor
    · rintro ⟨⟨hrest, hne, hlast⟩, hmanual⟩
      exact ⟨hrest, hmanual, hne, hlast⟩
    · rintro ⟨hrest, hmanual, hne, hlast⟩
      exact ⟨⟨hrest, hne, hlast⟩, hmanual⟩
  · rename_i hopen
    constructor
    · intro h
      cases h
    · rintro ⟨rfl, -⟩
      exact absurd rfl (hopen _)

/-! ### Targets as they are written -/

/-- Neither part is empty, and in the node nothing follows a closing parenthesis. -/
structure WellFormed (t : InfoTarget) : Prop where
  manual : t.manual ≠ ""
  node : t.node ≠ ""
  last : ')' ∉ t.node.toList.dropLast

private theorem toList_describe (t : InfoTarget) :
    t.describe.toList = '(' :: (t.manual.toList ++ ')' :: t.node.toList) := by
  simp [describe]

private theorem toList_normalize (text : String) : (normalize text).toList = Text.collapse text.toList :=
  String.toList_ofList

/-- A text reads as the target whose written form it is, up to white space. -/
theorem parse_eq_ok_iff {text : String} {t : InfoTarget} :
    parse text = .ok t ↔ t.WellFormed ∧ t.describe = normalize text := by
  have hsplit : parse text = .ok t ↔ split? (Text.collapse text.toList) = some (t.manual.toList, t.node.toList) := by
    unfold parse
    split
    · rename_i manual node hs
      rw [hs]
      constructor
      · intro h
        cases h
        simp
      · intro h
        obtain ⟨rfl, rfl⟩ := Prod.mk.inj (Option.some.inj h)
        simp
    · rename_i hs
      simp [hs]
  rw [hsplit, split?_eq_some_iff, ← toList_normalize, ← toList_describe, String.toList_inj]
  constructor
  · rintro ⟨heq, hmanual, hnode, hlast⟩
    exact ⟨⟨by simpa using hmanual, by simpa using hnode, hlast⟩, heq.symm⟩
  · rintro ⟨⟨hmanual, hnode, hlast⟩, heq⟩
    exact ⟨heq.symm, by simpa using hmanual, by simpa using hnode, hlast⟩

private theorem mem_dropLast_of_getElem? {c : Char} {cs : List Char} {i : Nat} (h : cs[i]? = some c)
    (hi : i + 1 < cs.length) : c ∈ cs.dropLast := by
  have hlt : i < cs.length - 1 := by omega
  apply List.mem_of_getElem? (i := i)
  rw [List.getElem?_dropLast, if_pos hlt, h]

/-- The parenthesis between the manual and the node is the last that closes. -/
theorem WellFormed.closesAt {t : InfoTarget} (h : t.WellFormed) :
    ClosesAt t.describe.toList (t.manual.toList.length + 1) ∧
      ∀ i, ClosesAt t.describe.toList i → i ≤ t.manual.toList.length + 1 := by
  have hmanual : 0 < t.manual.toList.length := List.length_pos_iff.2 (by simpa using h.manual)
  have hnode : 0 < t.node.toList.length := List.length_pos_iff.2 (by simpa using h.node)
  rw [toList_describe]
  constructor
  · refine ⟨by omega, by simp, ?_⟩
    simp only [List.length_cons, List.length_append]
    omega
  · rintro i ⟨-, hclose, hlt⟩
    simp only [List.length_cons, List.length_append] at hlt
    refine Nat.le_of_not_lt fun hbehind => h.last ?_
    -- a later one would stand in the node, and not at its end
    obtain ⟨j, rfl⟩ : ∃ j, i = t.manual.toList.length + j + 2 := ⟨i - t.manual.toList.length - 2, by omega⟩
    have hinside : t.node.toList[j]? = some ')' := by
      rw [List.getElem?_cons_succ, List.getElem?_append_right (by omega)] at hclose
      rwa [show t.manual.toList.length + j + 1 - t.manual.toList.length = j + 1 by omega,
        List.getElem?_cons_succ] at hclose
    exact mem_dropLast_of_getElem? hinside (by omega)

/-- A text with an opening parenthesis in front that is closed somewhere is the written form of a target. -/
private theorem exists_describe_of_closesAt {cs : List Char} {i : Nat}
    (hopen : cs.head? = some '(') (hclose : ClosesAt cs i) :
    ∃ t : InfoTarget, t.WellFormed ∧ t.describe.toList = cs := by
  obtain ⟨rest, rfl⟩ := List.head?_eq_some_iff.1 hopen
  obtain ⟨j, rfl⟩ : ∃ j, i = j + 2 := ⟨i - 2, by have := hclose.1; omega⟩
  obtain ⟨-, hparen, hlt⟩ := hclose
  rw [List.getElem?_cons_succ] at hparen
  rw [List.length_cons] at hlt
  cases hs : splitLast? rest with
  | none => exact absurd (mem_dropLast_of_getElem? hparen (by omega)) (splitLast?_eq_none_iff.1 hs)
  | some parts =>
    obtain ⟨manual, node⟩ := parts
    obtain ⟨rfl, hnode, hlast⟩ := splitLast?_eq_some_iff.1 hs
    have hmanual : manual ≠ [] := by
      rintro rfl
      rw [List.nil_append, List.getElem?_cons_succ] at hparen
      rw [List.nil_append, List.length_cons] at hlt
      exact hlast (mem_dropLast_of_getElem? hparen (by omega))
    refine ⟨⟨String.ofList manual, String.ofList node⟩, ⟨?_, ?_, ?_⟩, ?_⟩
    · simpa using hmanual
    · simpa using hnode
    · simpa using hlast
    · simp [toList_describe]

private theorem collapsed_describe {t : InfoTarget} (hmanual : Text.Collapsed t.manual.toList)
    (hnode : Text.Collapsed t.node.toList) : Text.Collapsed t.describe.toList := by
  have hopen : Text.isBlank '(' = false := by decide
  have hclose : Text.isBlank ')' = false := by decide
  have hbehind : Text.Collapsed (')' :: t.node.toList) := Text.collapsed_cons.2 ⟨by simp [hclose], hnode⟩
  rw [toList_describe]
  refine Text.collapsed_cons.2 ⟨by simp [hopen], ?_, ?_⟩
  · intro c hc
    rcases List.mem_append.1 hc with hc | hc
    · exact hmanual.1 c hc
    · exact hbehind.1 c hc
  · refine List.isChain_append.2 ⟨hmanual.2, hbehind.2, fun c _ d hd _ => ?_⟩
    obtain rfl : ')' = d := by simpa using hd
    decide

/-- The white space of a text counts as single spaces. With these it reads as a target exactly if it opens with a
parenthesis that is closed somewhere. The manual then ends at the last place where one closes, the node is what follows,
and the target is written like the text. Conversely, a target whose parts have single spaces is read back from its
written form exactly if no closing parenthesis stands in the node but at its end. -/
theorem parse_at_last_close (text : String) :
    Text.Collapsed (normalize text).toList ∧
    ((∃ t, parse text = .ok t) ↔
      (normalize text).toList.head? = some '(' ∧ ∃ i, ClosesAt (normalize text).toList i) ∧
    (∀ t, parse text = .ok t → t.describe = normalize text ∧
      ∃ i, ClosesAt (normalize text).toList i ∧ (∀ j, ClosesAt (normalize text).toList j → j ≤ i) ∧
        t.manual.toList = ((normalize text).toList.take i).drop 1 ∧
        t.node.toList = (normalize text).toList.drop (i + 1)) ∧
    ∀ manual node : String, manual ≠ "" → node ≠ "" → Text.Collapsed manual.toList → Text.Collapsed node.toList →
      (parse (describe ⟨manual, node⟩) = .ok ⟨manual, node⟩ ↔ ')' ∉ node.toList.dropLast) := by
  refine ⟨?_, ⟨?_, ?_⟩, ?_, ?_⟩
  · rw [toList_normalize]
    exact (Text.collapsed_collapseAfter false _).1
  · rintro ⟨t, hparse⟩
    obtain ⟨hwell, hdescribe⟩ := parse_eq_ok_iff.1 hparse
    rw [← hdescribe]
    exact ⟨by rw [toList_describe]; rfl, _, hwell.closesAt.1⟩
  · rintro ⟨hopen, i, hclose⟩
    obtain ⟨t, hwell, hdescribe⟩ := exists_describe_of_closesAt hopen hclose
    exact ⟨t, parse_eq_ok_iff.2 ⟨hwell, String.toList_inj.1 hdescribe⟩⟩
  · intro t hparse
    obtain ⟨hwell, hdescribe⟩ := parse_eq_ok_iff.1 hparse
    obtain ⟨hclose, hlast⟩ := hwell.closesAt
    rw [← hdescribe]
    refine ⟨rfl, _, hclose, hlast, ?_, ?_⟩
    · simp [toList_describe]
    · rw [toList_describe, List.drop_succ_cons, Nat.add_comm, ← List.drop_drop]
      simp
  · intro manual node hmanual hnode hm hn
    have hsame : describe ⟨manual, node⟩ = normalize (describe ⟨manual, node⟩) := by
      rw [← String.toList_inj, toList_normalize]
      exact (Text.collapseAfter_of_collapsed (collapsed_describe hm hn) (by simp)).symm
    rw [parse_eq_ok_iff]
    constructor
    · exact fun h => h.1.last
    · exact fun h => ⟨⟨hmanual, hnode, h⟩, hsame⟩

/-- A closing parenthesis in the manual does no harm, and in the node only at the end. -/
theorem parse_at_last_close_nested :
    (∃ t, parse "(a (b)\n c)d)" = .ok t) ∧
      parse (describe ⟨"a (b) c", "d)"⟩) = .ok ⟨"a (b) c", "d)"⟩ ∧
      parse (describe ⟨"a", "b) c"⟩) ≠ .ok ⟨"a", "b) c"⟩ := by
  have hmanual : Text.Collapsed "a (b) c".toList := by simp [Text.Collapsed, Text.isBlank]
  have hnode : Text.Collapsed "d)".toList := by simp [Text.Collapsed, Text.isBlank]
  have hshort : Text.Collapsed "a".toList := by simp [Text.Collapsed, Text.isBlank]
  have hlong : Text.Collapsed "b) c".toList := by simp [Text.Collapsed, Text.isBlank]
  obtain ⟨-, hreads, -, hwrites⟩ := parse_at_last_close "(a (b)\n c)d)"
  refine ⟨hreads.2 ⟨by decide, 8, by decide, by decide, by decide⟩, ?_, ?_⟩
  · exact (hwrites "a (b) c" "d)" (by decide) (by decide) hmanual hnode).2 (by decide)
  · intro h
    exact (hwrites "a" "b) c" (by decide) (by decide) hshort hlong).1 h (by decide)

end InfoTarget

end LispDoc
