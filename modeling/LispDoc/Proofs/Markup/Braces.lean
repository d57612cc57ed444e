import LispDoc.Proofs.Markup.Leftmost
import LispDoc.Roles

/-!
# Names in braces

Code is read as plain text and arguments, which stand in braces. Nodes can be written back as code (`Roles.written`),
and `Roles.CodeNodes` says which nodes code is read as: no plain text is empty or next to another, no name is empty or
holds a closing brace, and no opening brace is left in plain text from which a name in braces could be read.

The nodes of a text are such nodes and are written back to the text, and no other nodes are both
(`Roles.codeNodes_code`): unclosed, empty, nested and adjacent braces leave no choice.
-/

namespace LispDoc.Roles

/-- A name in braces stands in front: an opening brace, some characters other than a closing brace, and a closing
brace. -/
def StartsName (text : List Char) : Prop :=
  ∃ name rest, text = '\x7b' :: name ++ '\x7d' :: rest ∧ name ≠ [] ∧ '\x7d' ∉ name

/-- How a node of code is written: plain text as it is, and an argument in braces. -/
def written : Inline → List Char
  | .plain text => text.toList
  | .metaVariable name => '\x7b' :: name.toList ++ ['\x7d']
  | _ => []

/-- The nodes that code is read as. -/
inductive CodeNodes : List Inline → Prop
  | nil : CodeNodes []
  | argument {name : String} {nodes : List Inline} (ne : name ≠ "") (closed : '\x7d' ∉ name.toList)
      (more : CodeNodes nodes) : CodeNodes (.metaVariable name :: nodes)
  | plain {text : String} {nodes : List Inline} (ne : text ≠ "") (apart : ∀ t rest, nodes ≠ .plain t :: rest)
      (unread : ∀ l r, text.toList = l ++ '\x7b' :: r → ¬ StartsName ('\x7b' :: r ++ nodes.flatMap written))
      (more : CodeNodes nodes) : CodeNodes (.plain text :: nodes)

/-! ### The rule for braces -/

theorem bracedRule_eq_some {before : Option Char} {text : List Char} {f : Found} (h : bracedRule before text = some f) :
    ∃ name rest, text = '\x7b' :: name ++ '\x7d' :: rest ∧ name ≠ [] ∧ '\x7d' ∉ name ∧
      f = ⟨'\x7b' :: name ++ ['\x7d'], some [.metaVariable (String.ofList name)]⟩ := by
  unfold bracedRule at h
  split at h
  · rename_i cs
    dsimp only at h
    split at h
    · simp at h
    · rename_i hc
      simp only [Bool.or_eq_true, List.isEmpty_iff, beq_iff_eq, not_or] at hc
      obtain ⟨rest, hrest⟩ := Markup.eq_takeWhile_append_cons hc.2
      have hname : '\x7d' ∉ cs.takeWhile (· != '\x7d') := Markup.notMem_takeWhile_ne '\x7d' cs
      refine ⟨cs.takeWhile (· != '\x7d'), rest, ?_, hc.1, hname, (Option.some.inj h).symm⟩
      rw [List.cons_append, ← hrest]
  · simp at h

private theorem bracedRule_ne_none {text : List Char} (h : StartsName text) (before : Option Char) :
    bracedRule before text ≠ none := by
  obtain ⟨name, rest, rfl, hne, hclosed⟩ := h
  have htake : (name ++ '\x7d' :: rest).takeWhile (· != '\x7d') = name := Markup.takeWhile_append_mark hclosed rest
  have hrule : bracedRule before ('\x7b' :: (name ++ '\x7d' :: rest)) =
      some ⟨'\x7b' :: name ++ ['\x7d'], some [metaVariable (String.ofList name)]⟩ := by
    unfold bracedRule
    simp [htake, hne]
  rw [List.cons_append, hrule]
  exact Option.some_ne_none _

private theorem find?_braces (before : Option Char) (text : List Char) :
    (Markup.mk [bracedRule]).find? before text = bracedRule before text := by
  simp [Markup.find?]

private theorem anchored_braces : (Markup.mk [bracedRule]).Anchored := by
  intro before text f h
  rw [find?_braces] at h
  obtain ⟨name, rest, rfl, -, -, rfl⟩ := bracedRule_eq_some h
  exact ⟨by simp, rest, by simp⟩

/-! ### Reading -/

/-- What stands in its place as a match is a name in braces. -/
private theorem exists_name_of_placed {left right : List Char} {f : Found}
    (h : (Piece.found f).Placed (Markup.mk [bracedRule]) left right) :
    ∃ name, name ≠ [] ∧ '\x7d' ∉ name ∧
      f = ⟨'\x7b' :: name ++ ['\x7d'], some [.metaVariable (String.ofList name)]⟩ := by
  have hrule := (find?_braces _ _).symm.trans h
  obtain ⟨name, -, -, hne, hclosed, hf⟩ := bracedRule_eq_some hrule
  exact ⟨name, hne, hclosed, hf⟩

/-- Pieces that follow a gap do not start with plain text. -/
private theorem head_ne_plain_of_laid {left : List Char} {ps : List Piece} (h : (Markup.mk [bracedRule]).Laid left ps)
    (hgap : ∀ q ∈ ps.head?, ¬ q.IsGap) (t : String) (rest : List Inline) :
    ps.flatMap Piece.nodes ≠ .plain t :: rest := by
  cases h with
  | nil => simp
  | @cons _ q qs placed apart more =>
    cases q with
    | gap text => exact absurd trivial (hgap (.gap text) rfl)
    | found f =>
      obtain ⟨name, -, -, rfl⟩ := exists_name_of_placed placed
      simp [Piece.nodes]

private theorem codeNodes_of_laid {left : List Char} {ps : List Piece} (h : (Markup.mk [bracedRule]).Laid left ps) :
    CodeNodes (ps.flatMap Piece.nodes) ∧ (ps.flatMap Piece.nodes).flatMap written = ps.flatMap Piece.text := by
  induction h with
  | nil => exact ⟨.nil, rfl⟩
  | @cons left p ps placed apart more ih =>
    obtain ⟨hnodes, hwritten⟩ := ih
    rw [List.flatMap_cons, List.flatMap_append, hwritten, List.flatMap_cons]
    cases p with
    | gap text =>
      obtain ⟨hne, hnone⟩ := placed
      have hapart := head_ne_plain_of_laid more (apart trivial)
      have hunread : ∀ l r, (String.ofList text).toList = l ++ '\x7b' :: r →
          ¬ StartsName ('\x7b' :: r ++ (ps.flatMap Piece.nodes).flatMap written) := by
        intro l r htext hname
        rw [String.toList_ofList] at htext
        rw [hwritten] at hname
        -- nothing is found from within the gap, so no name can start there
        have hfind := hnone l '\x7b' r htext
        rw [find?_braces] at hfind
        exact bracedRule_ne_none hname _ hfind
      exact ⟨.plain (Inline.ofList_ne_empty hne) hapart hunread hnodes, by simp [Piece.nodes, Piece.text, written]⟩
    | found f =>
      obtain ⟨name, hne, hclosed, rfl⟩ := exists_name_of_placed placed
      refine ⟨.argument (Inline.ofList_ne_empty hne) ?_ hnodes, by simp [Piece.nodes, Piece.text, written]⟩
      rwa [String.toList_ofList]

/-! ### No other reading -/

private theorem startsName_written {name : String} (ne : name ≠ "") (closed : '\x7d' ∉ name.toList) (rest : List Char) :
    StartsName (written (.metaVariable name) ++ rest) :=
  ⟨name.toList, rest, by simp [written], mt String.toList_eq_nil_iff.1 ne, closed⟩

namespace CodeNodes

/-- Nodes that do not start with plain text start with a name in braces. -/
private theorem startsName {nodes : List Inline} (h : CodeNodes nodes) (apart : ∀ t rest, nodes ≠ .plain t :: rest)
    (hne : nodes.flatMap written ≠ []) : StartsName (nodes.flatMap written) := by
  cases h with
  | nil => exact absurd rfl hne
  | argument ne closed more => exact startsName_written ne closed _
  | @plain text nodes => exact absurd rfl (apart text nodes)

/-- From no end of plain text on can a name be read. -/
private theorem not_startsName {text right : List Char}
    (unread : ∀ l r, text = l ++ '\x7b' :: r → ¬ StartsName ('\x7b' :: r ++ right)) {l r : List Char}
    (htext : text = l ++ r) (hne : r ≠ []) : ¬ StartsName (r ++ right) := by
  intro h
  obtain ⟨name, rest, heq, -⟩ := id h
  cases r with
  | nil => exact hne rfl
  | cons c r =>
    have hc : c = '\x7b' := (List.cons.inj heq).1
    rw [hc] at htext h
    exact unread l r htext h

/-- Plain text that goes on where other plain text of the same code ends would go on with a name. -/
private theorem eq_nil_of_overlap {nodes : List Inline} {l r right : List Char} (h : CodeNodes nodes)
    (apart : ∀ t rest, nodes ≠ .plain t :: rest) (heq : nodes.flatMap written = r ++ right)
    (unread : ∀ l' r', l ++ r = l' ++ '\x7b' :: r' → ¬ StartsName ('\x7b' :: r' ++ right)) : r = [] := by
  by_contra hr
  have hne : nodes.flatMap written ≠ [] := by simp [heq, hr]
  have hname := h.startsName apart hne
  rw [heq] at hname
  exact not_startsName unread rfl hr hname

theorem unique {as bs : List Inline} (ha : CodeNodes as) (hb : CodeNodes bs)
    (h : as.flatMap written = bs.flatMap written) : as = bs := by
  induction ha generalizing bs with
  | nil =>
    cases hb with
    | nil => rfl
    | argument => simp [written] at h
    | plain ne => simp [written, mt String.toList_eq_nil_iff.1 ne] at h
  | @argument name as ne closed more ih =>
    rw [List.flatMap_cons] at h
    cases hb with
    | nil => simp [written] at h
    | @argument other bs _ closed' more' =>
      have hsame : name.toList ++ '\x7d' :: as.flatMap written = other.toList ++ '\x7d' :: bs.flatMap written := by
        simpa [written] using h
      have hname : name.toList = other.toList := Markup.eq_of_append_mark closed closed' hsame
      rw [hname, List.append_cancel_left_eq, List.cons.injEq] at hsame
      rw [String.toList_inj.1 hname, ih more' hsame.2]
    | @plain text bs ne' apart' unread' more' =>
      have hname := startsName_written ne closed (as.flatMap written)
      rw [h] at hname
      exact absurd hname (not_startsName unread' (l := []) rfl (mt String.toList_eq_nil_iff.1 ne'))
  | @plain text as ne apart unread more ih =>
    rw [List.flatMap_cons] at h
    cases hb with
    | nil => simp [written, mt String.toList_eq_nil_iff.1 ne] at h
    | @argument name bs ne' closed' more' =>
      have hname := startsName_written ne' closed' (bs.flatMap written)
      rw [← List.flatMap_cons, ← h] at hname
      exact absurd hname (not_startsName unread (l := []) rfl (mt String.toList_eq_nil_iff.1 ne))
    | @plain other bs ne' apart' unread' more' =>
      -- one of the two texts starts with the other, and cannot go on behind it
      have hsame : text.toList ++ as.flatMap written = other.toList ++ bs.flatMap written := h
      have htext : text.toList = other.toList := by
        rcases List.append_eq_append_iff.1 hsame with ⟨r, hother, has⟩ | ⟨r, htext, hbs⟩
        · have hr := more.eq_nil_of_overlap apart has (hother ▸ unread')
          rw [hother, hr, List.append_nil]
        · have hr := more'.eq_nil_of_overlap apart' hbs (htext ▸ unread)
          rw [htext, hr, List.append_nil]
      rw [htext, List.append_cancel_left_eq] at hsame
      rw [String.toList_inj.1 htext, ih more' hsame]

end CodeNodes

/-- Code is read as a literal of plain text and arguments that is written back to the code: no plain text is empty or
next to another, no name is empty or holds a closing brace, and from no opening brace in plain text could a name be
read. No other nodes are like that. -/
theorem codeNodes_code (text : String) :
    ∃ nodes, code text = .literal nodes ∧ CodeNodes nodes ∧ nodes.flatMap written = text.toList ∧
      ∀ others, CodeNodes others → others.flatMap written = text.toList → others = nodes := by
  have hlaid := anchored_braces.laid_pieces text.toList
  obtain ⟨hnodes, hwritten⟩ := codeNodes_of_laid hlaid
  have htext : ((Markup.mk [bracedRule]).nodes text.toList).flatMap written = text.toList :=
    hwritten.trans (Markup.flatMap_text_scan anchored_braces none [] text.toList)
  refine ⟨_, rfl, hnodes, htext, ?_⟩
  intro others hothers hsame
  exact hothers.unique hnodes (hsame.trans htext.symm)

end LispDoc.Roles
