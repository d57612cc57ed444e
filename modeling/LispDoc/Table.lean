/-!
# Tables

A table maps names to values and lists its entries in increasing order of the names. Two tables that give the same
answers are equal (`Table.ext_get?`), so a table is what it maps.
-/

namespace LispDoc

/-- Entries with strictly increasing names. -/
structure Table (α : Type) where
  entries : List (String × α)
  sorted : entries.Pairwise fun a b => a.1 < b.1
  deriving DecidableEq

namespace Table

variable {α : Type}

/-- The table without entries. -/
def empty : Table α := ⟨[], .nil⟩

instance : Inhabited (Table α) := ⟨empty⟩

/-- The value of a name among entries. -/
def find (key : String) : List (String × α) → Option α
  | [] => none
  | (k, v) :: rest => if k = key then some v else find key rest

/-- The value of a name. -/
def get? (t : Table α) (key : String) : Option α := find key t.entries

/-- Whether a name has a value. -/
def contains (t : Table α) (key : String) : Bool := (t.get? key).isSome

/-- Whether two tables have the same names, and values that agree. -/
def agrees (same : α → α → Bool) (s t : Table α) : Bool :=
  s.entries.length == t.entries.length && (s.entries.zip t.entries).all fun p => p.1.1 == p.2.1 && same p.1.2 p.2.2

/-- The entries with one more, in its place; an entry with the same name is replaced. -/
def place (key : String) (value : α) : List (String × α) → List (String × α)
  | [] => [(key, value)]
  | (k, v) :: rest =>
    if key < k then (key, value) :: (k, v) :: rest
    else if k = key then (key, value) :: rest
    else (k, v) :: place key value rest

theorem lt_of_not_lt_of_ne {a b : String} (h : ¬ a < b) (hne : b ≠ a) : b < a :=
  Decidable.byContradiction fun h' => hne (String.le_antisymm (String.not_lt.1 h) (String.not_lt.1 h'))

theorem mem_place {key : String} {value : α} {entries : List (String × α)} {e : String × α}
    (h : e ∈ place key value entries) : e = (key, value) ∨ e ∈ entries := by
  induction entries with
  | nil => simpa [place] using h
  | cons hd tl ih =>
    obtain ⟨k, v⟩ := hd
    simp only [place] at h
    split at h
    · simpa using h
    split at h
    · simp at h ⊢; grind
    · simp only [List.mem_cons] at h ⊢; grind

theorem sorted_place (key : String) (value : α) {entries : List (String × α)}
    (h : entries.Pairwise fun a b => a.1 < b.1) : (place key value entries).Pairwise fun a b => a.1 < b.1 := by
  induction entries with
  | nil => simp [place]
  | cons hd tl ih =>
    obtain ⟨k, v⟩ := hd
    rw [List.pairwise_cons] at h
    simp only [place]
    split
    · next hlt =>
      refine List.pairwise_cons.2 ⟨fun e he => ?_, List.pairwise_cons.2 h⟩
      rcases List.mem_cons.1 he with rfl | he
      · exact hlt
      · exact String.lt_trans hlt (h.1 e he)
    split
    · next hk =>
      subst hk
      exact List.pairwise_cons.2 ⟨h.1, h.2⟩
    · next hnlt hne =>
      refine List.pairwise_cons.2 ⟨fun e he => ?_, ih h.2⟩
      rcases mem_place he with rfl | he
      · exact lt_of_not_lt_of_ne hnlt hne
      · exact h.1 e he

/-- The table in which `key` has `value`. -/
def insert (t : Table α) (key : String) (value : α) : Table α :=
  ⟨place key value t.entries, sorted_place key value t.sorted⟩

/-- The names in increasing order. -/
def keys (t : Table α) : List String := t.entries.map (·.1)

/-- The values in the order of their names. -/
def values (t : Table α) : List α := t.entries.map (·.2)

/-- The table of a list of entries; of two entries with one name the later counts. -/
def ofList (entries : List (String × α)) : Table α :=
  entries.foldl (fun t e => t.insert e.1 e.2) empty

@[simp] theorem get?_empty (key : String) : (empty : Table α).get? key = none := rfl

theorem find_place (key : String) (value : α) (entries : List (String × α)) (k : String) :
    find k (place key value entries) = if key = k then some value else find k entries := by
  induction entries with
  | nil => simp [place, find]
  | cons hd tl ih =>
    obtain ⟨j, v⟩ := hd
    simp only [place]
    split
    · simp [find]
    split
    · next h => subst h; simp only [find]; split <;> rfl
    · next h => simp only [find, ih]; split <;> grind

/-- What a table answers after an insertion. -/
@[simp] theorem get?_insert (t : Table α) (key : String) (value : α) (k : String) :
    (t.insert key value).get? k = if key = k then some value else t.get? k :=
  find_place key value t.entries k

theorem find_eq_none_of_lt {key : String} {entries : List (String × α)} (h : ∀ e ∈ entries, key < e.1) :
    find key entries = none := by
  induction entries with
  | nil => rfl
  | cons hd tl ih =>
    obtain ⟨k, v⟩ := hd
    have hk : key < k := h _ List.mem_cons_self
    have hne : k ≠ key := fun he => String.lt_irrefl key (he ▸ hk)
    simp [find, hne, ih fun e he => h e (List.mem_cons_of_mem _ he)]

theorem entries_eq_of_find {as bs : List (String × α)} (ha : as.Pairwise fun a b => a.1 < b.1)
    (hb : bs.Pairwise fun a b => a.1 < b.1) (h : ∀ k, find k as = find k bs) : as = bs := by
  induction as generalizing bs with
  | nil =>
    cases bs with
    | nil => rfl
    | cons hd tl => have := h hd.1; simp [find] at this
  | cons x xs ih =>
    obtain ⟨k, v⟩ := x
    rw [List.pairwise_cons] at ha
    cases bs with
    | nil => have := h k; simp [find] at this
    | cons y ys =>
      obtain ⟨j, w⟩ := y
      rw [List.pairwise_cons] at hb
      have hkj : k = j := by
        rcases Decidable.em (k < j) with hlt | hnlt
        · have hn : find k ((j, w) :: ys) = none := find_eq_none_of_lt fun e he => by
            rcases List.mem_cons.1 he with rfl | he
            · exact hlt
            · exact String.lt_trans hlt (hb.1 e he)
          have := h k; simp [find] at this hn; simp_all
        · rcases Decidable.em (j = k) with he | hne
          · exact he.symm
          · have hlt := lt_of_not_lt_of_ne hnlt hne
            have hn : find j ((k, v) :: xs) = none := find_eq_none_of_lt fun e he => by
              rcases List.mem_cons.1 he with rfl | he
              · exact hlt
              · exact String.lt_trans hlt (ha.1 e he)
            have := h j; simp [find] at this hn; simp_all
      subst hkj
      have hv : v = w := by have := h k; simpa [find] using this
      subst hv
      refine congrArg _ (ih ha.2 hb.2 fun m => ?_)
      by_cases hm : k = m
      · subst hm
        rw [find_eq_none_of_lt ha.1, find_eq_none_of_lt hb.1]
      · have := h m; simpa [find, hm] using this

/-- Tables with the same answers are equal. -/
theorem ext_get? {t u : Table α} (h : ∀ k, t.get? k = u.get? k) : t = u := by
  obtain ⟨as, ha⟩ := t
  obtain ⟨bs, hb⟩ := u
  have : as = bs := entries_eq_of_find ha hb h
  subst this; rfl

end Table

end LispDoc
