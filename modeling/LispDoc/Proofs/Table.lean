import LispDoc.Table

/-!
# Tables made from lists

Whatever is in the table of a list was in the list (`Table.mem_of_mem_ofList`), and a table is the table of its own
entries (`Table.ofList_entries`). The values that a table lists are those of its names (`Table.mem_values_iff`).
-/

namespace LispDoc.Table

variable {α : Type}

/-- The table after some insertions holds what it held before and what was inserted. -/
private theorem mem_foldl_insert {es : List (String × α)} {t : Table α} {e : String × α}
    (h : e ∈ (es.foldl (fun t e => t.insert e.1 e.2) t).entries) : e ∈ t.entries ∨ e ∈ es := by
  induction es generalizing t with
  | nil => exact .inl h
  | cons x es ih =>
    rcases ih h with h | h
    · rcases mem_place h with rfl | h
      · exact .inr (by simp)
      · exact .inl h
    · exact .inr (by simp [h])

theorem mem_of_mem_ofList {es : List (String × α)} {e : String × α} (h : e ∈ (ofList es).entries) : e ∈ es := by
  rcases mem_foldl_insert h with h | h
  · exact absurd h List.not_mem_nil
  · exact h

/-- A name that comes after all others is put at the end. -/
private theorem place_of_lt {key : String} {value : α} {es : List (String × α)} (h : ∀ e ∈ es, e.1 < key) :
    place key value es = es ++ [(key, value)] := by
  induction es with
  | nil => rfl
  | cons x es ih =>
    have hx : x.1 < key := h x (by simp)
    have hlt : ¬ key < x.1 := fun hlt => String.lt_irrefl _ (String.lt_trans hlt hx)
    have hne : x.1 ≠ key := fun he => String.lt_irrefl key (he ▸ hx)
    rw [place, if_neg hlt, if_neg hne, ih fun e he => h e (by simp [he])]
    rfl

private theorem entries_foldl_insert {es : List (String × α)} {t : Table α}
    (h : (t.entries ++ es).Pairwise fun a b => a.1 < b.1) :
    (es.foldl (fun t e => t.insert e.1 e.2) t).entries = t.entries ++ es := by
  induction es generalizing t with
  | nil => simp
  | cons x es ih =>
    have hx : (t.insert x.1 x.2).entries = t.entries ++ [x] :=
      place_of_lt fun e he => (List.pairwise_append.1 h).2.2 e he x (by simp)
    have hsplit : t.entries ++ x :: es = (t.entries ++ [x]) ++ es := by simp
    rw [hsplit] at h ⊢
    rw [List.foldl_cons, ih (by rwa [hx]), hx]

/-- A table is the table of its entries. -/
theorem ofList_entries (t : Table α) : ofList t.entries = t := by
  obtain ⟨entries, sorted⟩ := t
  have h := @entries_foldl_insert α entries empty (by simpa [empty] using sorted)
  have hempty : (empty : Table α).entries = [] := rfl
  rw [hempty, List.nil_append] at h
  unfold ofList
  cases hfold : entries.foldl (fun t e => t.insert e.1 e.2) (empty : Table α) with
  | mk es hs =>
    rw [hfold] at h
    cases h
    rfl

/-! ### Values -/

private theorem mem_of_find {key : String} {value : α} {es : List (String × α)} (h : find key es = some value) :
    (key, value) ∈ es := by
  induction es with
  | nil => cases h
  | cons e es ih =>
    rw [find] at h
    split at h
    · next heq =>
      obtain rfl := Option.some.inj h
      rw [← heq]
      exact List.mem_cons_self
    · exact List.mem_cons_of_mem _ (ih h)

private theorem find_of_mem {e : String × α} {es : List (String × α)} (hes : es.Pairwise fun a b => a.1 < b.1)
    (h : e ∈ es) : find e.1 es = some e.2 := by
  induction es with
  | nil => cases h
  | cons x es ih =>
    rw [List.pairwise_cons] at hes
    rcases List.mem_cons.1 h with rfl | h
    · rw [find, if_pos rfl]
    · have hne : x.1 ≠ e.1 := fun heq => String.lt_irrefl e.1 (heq ▸ hes.1 e h)
      rw [find, if_neg hne, ih hes.2 h]

theorem mem_values_iff {t : Table α} {value : α} : value ∈ t.values ↔ ∃ key, t.get? key = some value := by
  constructor
  · intro h
    obtain ⟨e, he, rfl⟩ := List.mem_map.1 h
    exact ⟨e.1, find_of_mem t.sorted he⟩
  · rintro ⟨key, h⟩
    exact List.mem_map.2 ⟨(key, value), mem_of_find h, rfl⟩

end LispDoc.Table
