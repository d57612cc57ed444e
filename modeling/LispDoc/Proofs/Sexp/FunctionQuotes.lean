import LispDoc.Sexp.FunctionQuote
import LispDoc.Sexp.Reader

/-!
# What is left of function quotes

The items of all lists and vectors of a form, at every depth and under quotes, are its rows (`Sexp.rows`). Sanitizing a
form sanitizes each of its rows and nothing else (`Sexp.rows_sanitize`): a mark `#` is dropped where a quoted symbol
comes next, and every other item stays (`Sexp.Unmarks`).

Each item is judged by the one that follows it in the form as it was. Of two marks in a row before a quoted symbol only
the second goes, so that the first is before the quoted symbol now (`Sexp.infix_sanitizeItems_iff`). This is the one way
in which a mark can be left, and forms where it does not happen are those that a second pass would not change.
-/

namespace LispDoc.Sexp

mutual
/-- The items of the lists and vectors in the form. -/
def rows : Sexp → List (List Sexp)
  | quoted inner => inner.rows
  | list items => items :: rowsOf items
  | vector items => items :: rowsOf items
  | _ => []

def rowsOf : List Sexp → List (List Sexp)
  | [] => []
  | item :: items => item.rows ++ rowsOf items
end

/-- Somewhere in the form a mark comes right before a quoted symbol. -/
def HasFunctionQuote (form : Sexp) : Prop :=
  ∃ row ∈ form.rows, ∃ name, [symbol "#", quoted (symbol name)] <:+: row

/-- Somewhere in the form two marks come right before a quoted symbol. -/
def HasDoubledMark (form : Sexp) : Prop :=
  ∃ row ∈ form.rows, ∃ name, [symbol "#", symbol "#", quoted (symbol name)] <:+: row

mutual
/-- The second form is the first without some of the marks that come right before quoted symbols. -/
inductive Unmarks : Sexp → Sexp → Prop where
  | same (form : Sexp) : Unmarks form form
  | quoted {a b : Sexp} (h : Unmarks a b) : Unmarks (quoted a) (quoted b)
  | list {as bs : List Sexp} (h : UnmarksItems as bs) : Unmarks (list as) (list bs)
  | vector {as bs : List Sexp} (h : UnmarksItems as bs) : Unmarks (vector as) (vector bs)

inductive UnmarksItems : List Sexp → List Sexp → Prop where
  | nil : UnmarksItems [] []
  | keep {a b : Sexp} {as bs : List Sexp} (h : Unmarks a b) (hs : UnmarksItems as bs) :
    UnmarksItems (a :: as) (b :: bs)
  | drop {name : String} {as bs : List Sexp} (hs : UnmarksItems (quoted (symbol name) :: as) bs) :
    UnmarksItems (symbol "#" :: quoted (symbol name) :: as) bs
end

/-! ### Single items -/

theorem symbol?_eq_some_iff {form : Sexp} {name : String} : form.symbol? = some name ↔ form = symbol name := by
  cases form <;> simp [symbol?]

theorem quotedSymbol?_eq_some_iff {form : Sexp} {name : String} :
    form.quotedSymbol? = some name ↔ form = quoted (symbol name) := by
  cases form with
  | quoted inner => cases inner <;> simp [quotedSymbol?]
  | _ => simp [quotedSymbol?]

theorem isStrayHash_iff {item : Sexp} {rest : List Sexp} :
    isStrayHash item rest = true ↔ item = symbol "#" ∧ ∃ name more, rest = quoted (symbol name) :: more := by
  simp only [isStrayHash, Bool.and_eq_true, beq_iff_eq, symbol?_eq_some_iff]
  refine and_congr_right fun _ => ?_
  cases rest with
  | nil => simp
  | cons next more => simp [Option.isSome_iff_exists, quotedSymbol?_eq_some_iff]

theorem sanitize_eq_symbol_iff {form : Sexp} {name : String} : form.sanitize = symbol name ↔ form = symbol name := by
  cases form <;> simp [sanitize]

theorem sanitize_eq_quoted_symbol_iff {form : Sexp} {name : String} :
    form.sanitize = quoted (symbol name) ↔ form = quoted (symbol name) := by
  cases form <;> simp [sanitize, sanitize_eq_symbol_iff]

/-! ### Rows -/

theorem sanitizeItems_of_stray {item : Sexp} {rest : List Sexp} (h : isStrayHash item rest = true) :
    sanitizeItems (item :: rest) = sanitizeItems rest := by
  rw [sanitizeItems, if_pos h]

theorem sanitizeItems_of_not_stray {item : Sexp} {rest : List Sexp} (h : ¬ isStrayHash item rest = true) :
    sanitizeItems (item :: rest) = item.sanitize :: sanitizeItems rest := by
  rw [sanitizeItems, if_neg h]

theorem sanitizeItems_quoted_symbol (name : String) (rest : List Sexp) :
    sanitizeItems (quoted (symbol name) :: rest) = quoted (symbol name) :: sanitizeItems rest := by
  have hkept : ¬ isStrayHash (quoted (symbol name)) rest = true := by simp [isStrayHash_iff]
  rw [sanitizeItems_of_not_stray hkept, sanitize_eq_quoted_symbol_iff.2 rfl]

mutual
theorem rows_sanitize : (form : Sexp) → form.sanitize.rows = form.rows.map sanitizeItems
  | symbol _ => by simp [sanitize, rows]
  | string _ => by simp [sanitize, rows]
  | integer _ => by simp [sanitize, rows]
  | float _ => by simp [sanitize, rows]
  | quoted inner => by rw [sanitize, rows, rows, rows_sanitize inner]
  | list items => by rw [sanitize, rows, rows, List.map_cons, rowsOf_sanitizeItems items]
  | vector items => by rw [sanitize, rows, rows, List.map_cons, rowsOf_sanitizeItems items]

private theorem rowsOf_sanitizeItems : (items : List Sexp) →
    rowsOf (sanitizeItems items) = (rowsOf items).map sanitizeItems
  | [] => by simp [sanitizeItems, rowsOf]
  | item :: rest => by
    by_cases hstray : isStrayHash item rest = true
    · obtain ⟨rfl, -⟩ := isStrayHash_iff.1 hstray
      rw [sanitizeItems_of_stray hstray, rowsOf, rows, List.nil_append, rowsOf_sanitizeItems rest]
      all_goals simp
    · rw [sanitizeItems_of_not_stray hstray, rowsOf, rowsOf, List.map_append, rows_sanitize item,
        rowsOf_sanitizeItems rest]
end

/-- A quoted symbol comes first after sanitizing if it did before, or if one mark was in front of it. -/
private theorem head?_sanitizeItems_iff {items : List Sexp} {name : String} :
    (sanitizeItems items).head? = some (quoted (symbol name)) ↔
      (∃ more, items = quoted (symbol name) :: more) ∨ ∃ more, items = symbol "#" :: quoted (symbol name) :: more := by
  cases items with
  | nil => simp [sanitizeItems]
  | cons item rest =>
    by_cases hstray : isStrayHash item rest = true
    · rw [sanitizeItems_of_stray hstray]
      obtain ⟨rfl, name', more, rfl⟩ := isStrayHash_iff.1 hstray
      rw [sanitizeItems_quoted_symbol]
      simp
    · rw [sanitizeItems_of_not_stray hstray]
      constructor
      · intro h
        have hitem : item.sanitize = quoted (symbol name) := Option.some.inj h
        rw [sanitize_eq_quoted_symbol_iff.1 hitem]
        exact .inl ⟨rest, rfl⟩
      · rintro (⟨more, he⟩ | ⟨more, he⟩)
        · obtain ⟨rfl, rfl⟩ := List.cons.inj he
          rfl
        · obtain ⟨rfl, rfl⟩ := List.cons.inj he
          exact absurd (isStrayHash_iff.2 ⟨rfl, name, more, rfl⟩) hstray

/-- A mark is left before a quoted symbol exactly where there were two. -/
theorem infix_sanitizeItems_iff {items : List Sexp} {name : String} :
    [symbol "#", quoted (symbol name)] <:+: sanitizeItems items ↔
      [symbol "#", symbol "#", quoted (symbol name)] <:+: items := by
  induction items with
  | nil => simp [sanitizeItems]
  | cons item rest ih =>
    by_cases hstray : isStrayHash item rest = true
    · rw [sanitizeItems_of_stray hstray, ih, List.infix_cons_iff]
      obtain ⟨rfl, name', more, rfl⟩ := isStrayHash_iff.1 hstray
      have hno : ¬ [symbol "#", symbol "#", quoted (symbol name)] <+: symbol "#" :: quoted (symbol name') :: more := by
        simp [List.cons_prefix_cons]
      exact (or_iff_right hno).symm
    · rw [sanitizeItems_of_not_stray hstray, List.infix_cons_iff, List.infix_cons_iff, ih]
      -- a kept mark is before a quoted symbol now only if a mark between them was dropped
      have hfirst : [symbol "#", quoted (symbol name)] <+: item.sanitize :: sanitizeItems rest ↔
          [symbol "#", symbol "#", quoted (symbol name)] <+: item :: rest := by
        rw [List.cons_prefix_cons, List.cons_prefix_cons, eq_comm, sanitize_eq_symbol_iff, @eq_comm _ (symbol "#")]
        refine and_congr_right fun hitem => ?_
        have hnext : ¬ ∃ more, rest = quoted (symbol name) :: more :=
          fun ⟨more, hmore⟩ => hstray (isStrayHash_iff.2 ⟨hitem, name, more, hmore⟩)
        have hhead : [quoted (symbol name)] <+: sanitizeItems rest ↔
            (sanitizeItems rest).head? = some (quoted (symbol name)) := by
          cases sanitizeItems rest <;> simp [List.cons_prefix_cons, eq_comm]
        rw [hhead, head?_sanitizeItems_iff, or_iff_right hnext]
        constructor
        · rintro ⟨more, rfl⟩
          exact ⟨more, rfl⟩
        · rintro ⟨more, rfl⟩
          exact ⟨more, rfl⟩
      exact or_congr_left hfirst

private theorem hasFunctionQuote_sanitize_iff {form : Sexp} : form.sanitize.HasFunctionQuote ↔ form.HasDoubledMark := by
  unfold HasFunctionQuote HasDoubledMark
  rw [rows_sanitize]
  constructor
  · rintro ⟨row, hrow, name, hmark⟩
    obtain ⟨items, hitems, rfl⟩ := List.mem_map.1 hrow
    exact ⟨items, hitems, name, infix_sanitizeItems_iff.1 hmark⟩
  · rintro ⟨items, hitems, name, hmarks⟩
    exact ⟨_, List.mem_map_of_mem hitems, name, infix_sanitizeItems_iff.2 hmarks⟩

/-! ### Forms that stay as they are -/

private theorem exists_infix_cons_iff {item : Sexp} {rest : List Sexp} :
    (∃ name, [symbol "#", quoted (symbol name)] <:+: item :: rest) ↔
      isStrayHash item rest = true ∨ ∃ name, [symbol "#", quoted (symbol name)] <:+: rest := by
  have hfirst : (∃ name, [symbol "#", quoted (symbol name)] <+: item :: rest) ↔ isStrayHash item rest = true := by
    rw [isStrayHash_iff]
    constructor
    · rintro ⟨name, more, hmore⟩
      obtain ⟨rfl, rfl⟩ := List.cons.inj hmore
      exact ⟨rfl, name, more, rfl⟩
    · rintro ⟨rfl, name, more, rfl⟩
      exact ⟨name, more, rfl⟩
  rw [← hfirst, ← exists_or]
  exact exists_congr fun name => List.infix_cons_iff

private theorem length_sanitizeItems_le (items : List Sexp) : (sanitizeItems items).length ≤ items.length := by
  induction items with
  | nil => simp [sanitizeItems]
  | cons item items ih =>
    rw [sanitizeItems]
    split
    · exact Nat.le_succ_of_le ih
    · exact Nat.succ_le_succ ih

/-- Items stay as they are if there is no mark to drop and each of them stays as it is. -/
theorem sanitizeItems_eq_self_iff {items : List Sexp} : sanitizeItems items = items ↔
    (¬ ∃ name, [symbol "#", quoted (symbol name)] <:+: items) ∧ ∀ item ∈ items, item.sanitize = item := by
  induction items with
  | nil => simp [sanitizeItems]
  | cons item rest ih =>
    rw [exists_infix_cons_iff, not_or, List.forall_mem_cons]
    by_cases hstray : isStrayHash item rest = true
    · have hshort : sanitizeItems (item :: rest) ≠ item :: rest := by
        intro he
        have hlength := length_sanitizeItems_le rest
        rw [← sanitizeItems_of_stray hstray, he, List.length_cons] at hlength
        omega
      exact ⟨fun h => absurd h hshort, fun h => absurd hstray h.1.1⟩
    · rw [sanitizeItems_of_not_stray hstray, List.cons.injEq, ih]
      constructor
      · rintro ⟨hitem, hmarks, hitems⟩
        exact ⟨⟨hstray, hmarks⟩, hitem, hitems⟩
      · rintro ⟨⟨-, hmarks⟩, hitem, hitems⟩
        exact ⟨hitem, hmarks, hitems⟩

private theorem mem_rowsOf {items : List Sexp} {row : List Sexp} :
    row ∈ rowsOf items ↔ ∃ item ∈ items, row ∈ item.rows := by
  induction items with
  | nil => simp [rowsOf]
  | cons item items ih => simp [rowsOf, ih]

/-- The marks in a row of items are those among them and those inside each. -/
private theorem exists_row_iff {items : List Sexp} : (∃ row ∈ items :: rowsOf items, ∃ name,
      [symbol "#", quoted (symbol name)] <:+: row) ↔
    (∃ name, [symbol "#", quoted (symbol name)] <:+: items) ∨ ∃ item ∈ items, item.HasFunctionQuote := by
  constructor
  · rintro ⟨row, hrow, hmark⟩
    rcases List.mem_cons.1 hrow with rfl | hrow
    · exact .inl hmark
    · obtain ⟨item, hitem, hrow⟩ := mem_rowsOf.1 hrow
      exact .inr ⟨item, hitem, row, hrow, hmark⟩
  · rintro (hmark | ⟨item, hitem, row, hrow, hmark⟩)
    · exact ⟨items, List.mem_cons_self, hmark⟩
    · exact ⟨row, List.mem_cons_of_mem _ (mem_rowsOf.2 ⟨item, hitem, hrow⟩), hmark⟩

mutual
private theorem sanitize_eq_self_iff : (form : Sexp) → (form.sanitize = form ↔ ¬ form.HasFunctionQuote)
  | symbol _ => by simp [sanitize, HasFunctionQuote, rows]
  | string _ => by simp [sanitize, HasFunctionQuote, rows]
  | integer _ => by simp [sanitize, HasFunctionQuote, rows]
  | float _ => by simp [sanitize, HasFunctionQuote, rows]
  | quoted inner => by
    have hinner := sanitize_eq_self_iff inner
    rw [sanitize, Sexp.quoted.injEq, hinner, HasFunctionQuote, HasFunctionQuote, rows]
  | list items => by
    rw [sanitize, Sexp.list.injEq, sanitizeItems_eq_self_iff, forall_sanitize_eq_self_iff items, HasFunctionQuote, rows,
      exists_row_iff, not_or]
    simp
  | vector items => by
    rw [sanitize, Sexp.vector.injEq, sanitizeItems_eq_self_iff, forall_sanitize_eq_self_iff items, HasFunctionQuote,
      rows, exists_row_iff, not_or]
    simp

private theorem forall_sanitize_eq_self_iff : (items : List Sexp) →
    ((∀ item ∈ items, item.sanitize = item) ↔ ∀ item ∈ items, ¬ item.HasFunctionQuote)
  | [] => by simp
  | item :: items => by
    rw [List.forall_mem_cons, List.forall_mem_cons, sanitize_eq_self_iff item, forall_sanitize_eq_self_iff items]
end

/-! ### What sanitizing changes -/

mutual
private theorem unmarks_sanitize : (form : Sexp) → Unmarks form form.sanitize
  | symbol _ => by simpa [sanitize] using .same _
  | string _ => by simpa [sanitize] using .same _
  | integer _ => by simpa [sanitize] using .same _
  | float _ => by simpa [sanitize] using .same _
  | quoted inner => by
    rw [sanitize]
    exact .quoted (unmarks_sanitize inner)
  | list items => by
    rw [sanitize]
    exact .list (unmarksItems_sanitizeItems items)
  | vector items => by
    rw [sanitize]
    exact .vector (unmarksItems_sanitizeItems items)

private theorem unmarksItems_sanitizeItems : (items : List Sexp) → UnmarksItems items (sanitizeItems items)
  | [] => by
    rw [sanitizeItems]
    exact .nil
  | item :: rest => by
    have hrest := unmarksItems_sanitizeItems rest
    by_cases hstray : isStrayHash item rest = true
    · rw [sanitizeItems_of_stray hstray]
      obtain ⟨rfl, name, more, rfl⟩ := isStrayHash_iff.1 hstray
      exact .drop hrest
    · rw [sanitizeItems_of_not_stray hstray]
      exact .keep (unmarks_sanitize item) hrest
end

/-- Sanitizing leaves out marks before quoted symbols and nothing else. One is left exactly where there were two in a
row, and it is for such forms that sanitizing a second time is not for nothing. -/
theorem marks_left_by_sanitize (form : Sexp) :
    Unmarks form form.sanitize ∧ (form.sanitize.HasFunctionQuote ↔ form.HasDoubledMark) ∧
      (form.sanitize.sanitize = form.sanitize ↔ ¬ form.HasDoubledMark) := by
  refine ⟨unmarks_sanitize form, hasFunctionQuote_sanitize_iff, ?_⟩
  rw [sanitize_eq_self_iff, hasFunctionQuote_sanitize_iff]

/-- The first of two marks is left, and a second pass drops it. -/
theorem marks_left_before_car : ∃ form, Sexp.read "(# #'car)" = .ok form ∧
    form.sanitize = list [symbol "#", quoted (symbol "car")] ∧ form.sanitize.HasFunctionQuote ∧
    form.sanitize.sanitize ≠ form.sanitize := by
  have hread : Sexp.read "(# #'car)" = .ok (list [symbol "#", symbol "#", quoted (symbol "car")]) := by
    with_unfolding_all rfl
  have hone : (list [symbol "#", symbol "#", quoted (symbol "car")]).sanitize =
      list [symbol "#", quoted (symbol "car")] := by rfl
  have hmark : (list [symbol "#", quoted (symbol "car")]).HasFunctionQuote :=
    ⟨_, List.mem_cons_self, "car", [], [], rfl⟩
  refine ⟨_, hread, hone, by rwa [hone], fun hsame => ?_⟩
  rw [hone] at hsame
  exact (sanitize_eq_self_iff _).1 hsame hmark

end LispDoc.Sexp
