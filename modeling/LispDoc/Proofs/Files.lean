import LispDoc.Files
import LispDoc.Proofs.Text.Splitting

/-!
# Reading what was written

A file that was written holds what was written (`FileTable.readBytes_of_writeText`). The path leads to the same place
afterwards, since no directory on the way has become a file: the file is put where no directory was, and the plain path
of that place is not that of a directory which is always there.
-/

namespace LispDoc.FileTable

/-! ### Plain paths -/

/-- The last part of a plain path can be told from it. -/
private theorem getLast?_splitAt_key (place : List String) {last : String} (h : '/' ∉ last.toList) :
    (Text.splitAt '/' (key (place ++ [last])).toList).getLast? = some last.toList := by
  induction place with
  | nil =>
    rw [List.nil_append, key, String.toList_intercalate, List.map_singleton, List.intercalate_singleton,
      Text.splitAt_of_notMem h]
    rfl
  | cons part place ih =>
    obtain ⟨next, rest, hcons⟩ := List.exists_cons_of_ne_nil (List.concat_ne_nil last place)
    have hkey : (key (part :: place ++ [last])).toList = part.toList ++ '/' :: (key (place ++ [last])).toList := by
      rw [List.cons_append, hcons, key, key, String.toList_intercalate, String.toList_intercalate, List.map_cons,
        List.map_cons, List.intercalate_cons_cons]
      simp
    rw [hkey, Text.splitAt_append, List.getLast?_append, ih]
    rfl

/-- No file has the plain path of a directory that is always there. -/
private theorem key_ne_of_isFixed {fixed : List String} (hfixed : isFixed fixed = true) (place : List String)
    {last : String} (hslash : '/' ∉ last.toList) (hempty : last ≠ "") (hup : last ≠ "..") :
    key fixed ≠ key (place ++ [last]) := by
  intro heq
  have hlast := getLast?_splitAt_key place hslash
  rw [← heq] at hlast
  have hnil : some [] ≠ some last.toList := fun h => hempty (String.toList_eq_nil_iff.1 (Option.some.inj h).symm)
  rw [isFixed, Bool.or_eq_true] at hfixed
  rcases hfixed with hall | hroot
  · rcases List.eq_nil_or_concat fixed with rfl | ⟨before, part, rfl⟩
    · exact hnil hlast
    · -- the directories above the working directory end in `..`
      have hpart : part = ".." := by simpa using List.all_eq_true.1 hall part (by simp)
      rw [hpart, List.concat_eq_append, getLast?_splitAt_key before (by decide), Option.some.injEq] at hlast
      exact hup (String.toList_inj.1 hlast).symm
  · rw [eq_of_beq hroot] at hlast
    exact hnil hlast

/-! ### Nodes -/

variable {t : FileTable} {place directory : List String} {last : String} {node : Node}

/-- There is a directory at a list of named parts. -/
def IsDirectory (t : FileTable) (place : List String) : Prop := ∃ modified, t.node? place = some (.directory modified)

/-- A node that was put is there, and the directory it is in may have been stamped; all else is as before. -/
private theorem node?_setNode (t : FileTable) (place : List String) (node : Node) (other : List String) :
    (t.setNode place node).node? other =
      if key place = key other then some node
      else if (t.node? place).isNone ∧ key place.dropLast = key other then some (.directory t.clock)
      else t.node? other := by
  unfold setNode
  by_cases hkey : key place = key other
  · simp only [node?, Table.get?_insert, hkey, if_true, Option.some_or]
  · rw [if_neg hkey]
    cases hnode : t.node? place with
    | some _ => simp [node?, hkey]
    | none =>
      by_cases habove : key place.dropLast = key other
      · simp [node?, stampDirectory, hkey, habove]
      · simp [node?, stampDirectory, hkey, habove]

private theorem isSome_node?_setNode (h : (t.node? place).isSome = true) (target : List String) (node : Node) :
    ((t.setNode target node).node? place).isSome = true := by
  rw [node?_setNode]
  split
  · rfl
  · split
    · rfl
    · exact h

/-- No directory is lost when a file is put where there is none. -/
theorem IsDirectory.setNode (h : t.IsDirectory place) (htarget : ¬ t.IsDirectory (directory ++ [last]))
    (hslash : '/' ∉ last.toList) (hempty : last ≠ "") (hup : last ≠ "..") :
    (t.setNode (directory ++ [last]) node).IsDirectory place := by
  obtain ⟨modified, hplace⟩ := h
  have hkey : key (directory ++ [last]) ≠ key place := by
    intro heq
    by_cases hfixed : isFixed place = true
    · exact key_ne_of_isFixed hfixed directory hslash hempty hup heq.symm
    · -- the same entry of the table would be at the target
      refine htarget ⟨modified, ?_⟩
      rw [node?, if_neg hfixed, Option.or_none] at hplace
      rw [node?, heq, hplace, Option.some_or]
  rw [IsDirectory, node?_setNode, if_neg hkey]
  split
  · exact ⟨_, rfl⟩
  · exact ⟨modified, hplace⟩

/-! ### Walks -/

/-- Where a part leads from a list of named parts. -/
def onward (place : List String) (part : String) : List String :=
  if part.isEmpty || part == "." then place else if part == ".." then above place else place ++ [part]

/-- A step of a walk leaves a directory and arrives at a node. -/
private theorem walk_cons_eq_ok {part : String} {rest : List String} :
    t.walk place (part :: rest) = .ok directory ↔
      t.IsDirectory place ∧ part.utf8ByteSize ≤ 255 ∧ (t.node? (onward place part)).isSome = true ∧
        t.walk (onward place part) rest = .ok directory := by
  rw [walk, IsDirectory]
  cases hnode : t.node? place with
  | none => simp
  | some found =>
    cases found with
    | file content modified => simp
    | directory modified =>
      have harrive (next : List String) :
          (if (t.node? next).isNone then Except.error FileError.notFound else t.walk next rest) = .ok directory ↔
            (t.node? next).isSome = true ∧ t.walk next rest = .ok directory := by
        cases t.node? next <;> simp
      by_cases hstay : (part.isEmpty || part == ".") = true
      · have hshort : part.utf8ByteSize ≤ 255 := by
          rw [Bool.or_eq_true, String.isEmpty_iff, beq_iff_eq] at hstay
          rcases hstay with rfl | rfl <;> decide
        simp [onward, hstay, hnode, hshort]
      · by_cases hup : (part == "..") = true
        · have hshort : part.utf8ByteSize ≤ 255 := by rw [eq_of_beq hup]; decide
          rw [if_neg hstay, if_pos hup, harrive, onward, if_neg hstay, if_pos hup]
          simp [hshort]
        · by_cases hlong : 255 < part.utf8ByteSize
          · simp [hstay, hup, hlong, Nat.not_le.2 hlong]
          · rw [if_neg hstay, if_neg hup, if_neg hlong, harrive, onward, if_neg hstay, if_neg hup]
            simp [Nat.not_lt.1 hlong]

/-- A walk goes on from where it has led. -/
theorem walk_append {parts more between : List String} (h : t.walk place parts = .ok between)
    (hmore : t.walk between more = .ok directory) : t.walk place (parts ++ more) = .ok directory := by
  induction parts generalizing place with
  | nil =>
    rw [walk, Except.ok.injEq] at h
    rwa [h]
  | cons part rest ih =>
    obtain ⟨hplace, hshort, hnext, hrest⟩ := walk_cons_eq_ok.1 h
    exact walk_cons_eq_ok.2 ⟨hplace, hshort, hnext, ih hrest⟩

/-- A walk leads to the same place in a table that has the same directories and more. -/
private theorem walk_eq_of_forall {u : FileTable} (hdirectory : ∀ place, t.IsDirectory place → u.IsDirectory place)
    (hnode : ∀ place, (t.node? place).isSome = true → (u.node? place).isSome = true) {parts : List String}
    (h : t.walk place parts = .ok directory) : u.walk place parts = .ok directory := by
  induction parts generalizing place with
  | nil => exact h
  | cons part rest ih =>
    obtain ⟨hplace, hshort, hnext, hrest⟩ := walk_cons_eq_ok.1 h
    exact walk_cons_eq_ok.2 ⟨hdirectory _ hplace, hshort, hnode _ hnext, ih hrest⟩

/-! ### Files -/

/-- What it takes to write a file: the parts before the last lead to a directory, and the last part names no directory
in it. -/
private theorem writeText_eq_ok {t after : FileTable} {path text : String} (h : t.writeText path text = .ok after) :
    checkPath path = .ok () ∧ ∃ before last directory,
      Path.parts path = before ++ [last] ∧ t.walk (origin path) before = .ok directory ∧ t.IsDirectory directory ∧
      last ≠ "" ∧ last ≠ "." ∧ last ≠ ".." ∧ last.utf8ByteSize ≤ 255 ∧ ¬ t.IsDirectory (directory ++ [last]) ∧
      after = t.setNode (directory ++ [last]) (.file text.toUTF8 t.clock) := by
  have hne : Path.parts path ≠ [] := by simp [Path.parts, Text.splitAt_ne_nil]
  obtain ⟨before, last, hparts⟩ : ∃ before last, Path.parts path = before ++ [last] :=
    ⟨_, _, (List.dropLast_concat_getLast hne).symm⟩
  cases hcheck : checkPath path with
  | error e =>
    rw [writeText, hcheck] at h
    cases h
  | ok _ =>
    refine ⟨rfl, before, last, ?_⟩
    simp only [writeText, hcheck, hparts, bind, Except.bind, List.reverse_append, List.reverse_singleton,
      List.singleton_append, List.takeWhile_cons, List.dropWhile_cons] at h
    by_cases hempty : last.isEmpty = true
    · -- a path that ends in a slash is refused, whatever is before it
      simp only [hempty, if_true, List.isEmpty_cons, Bool.not_false, Bool.true_or] at h
      split at h
      · cases h
      · split at h <;> cases h
    · simp only [hempty, Bool.false_eq_true, if_false, List.isEmpty_nil, Bool.not_true, Bool.false_or,
        List.reverse_cons, List.reverse_reverse, List.dropLast_concat, List.getLast?_concat, Option.getD_some,
        Bool.or_eq_true, beq_iff_eq] at h
      split at h
      · cases h
      next directory hwalk =>
      split at h
      · next modified hdirectory =>
        split at h
        · cases h
        next hdots =>
        split at h
        · cases h
        next hshort =>
        split at h
        · cases h
        next hfree =>
        rw [not_or] at hdots
        refine ⟨directory, hparts, hwalk, ⟨modified, hdirectory⟩, ?_, hdots.1, hdots.2, Nat.not_lt.1 hshort, ?_,
          (Except.ok.inj h).symm⟩
        · rwa [String.isEmpty_iff] at hempty
        · rintro ⟨modified, hfound⟩
          exact hfree modified hfound
      · cases h
      · cases h

/-- A file that was written holds what was written. -/
theorem readBytes_of_writeText {t after : FileTable} {path text : String} (h : t.writeText path text = .ok after) :
    after.readBytes path = .ok text.toUTF8 := by
  obtain ⟨hcheck, before, last, directory, hparts, hwalk, hdirectory, hempty, hdot, hup, hshort, hfree, rfl⟩ :=
    writeText_eq_ok h
  have hslash : '/' ∉ last.toList := by
    have hlast : last ∈ Path.parts path := by simp [hparts]
    obtain ⟨piece, hpiece, rfl⟩ := List.mem_map.1 hlast
    rw [String.toList_ofList]
    exact Text.notMem_of_mem_splitAt hpiece
  obtain ⟨after, hafter⟩ : ∃ after, t.setNode (directory ++ [last]) (.file text.toUTF8 t.clock) = after := ⟨_, rfl⟩
  have hkeep (place : List String) (h : t.IsDirectory place) : after.IsDirectory place :=
    hafter ▸ h.setNode hfree hslash hempty hup
  have hfile : after.node? (directory ++ [last]) = some (.file text.toUTF8 t.clock) := by
    rw [← hafter, node?_setNode, if_pos rfl]
  have hthere : after.walk (origin path) before = .ok directory :=
    walk_eq_of_forall hkeep (fun place h => hafter ▸ isSome_node?_setNode h _ _) hwalk
  have honward : onward directory last = directory ++ [last] := by simp [onward, hempty, hdot, hup]
  have hlast : after.walk directory [last] = .ok (directory ++ [last]) := by
    rw [walk_cons_eq_ok, honward, hfile]
    exact ⟨hkeep _ hdirectory, hshort, rfl, rfl⟩
  have hresolve : after.resolve path = .ok (directory ++ [last]) := by
    rw [resolve, hcheck, hparts]
    exact walk_append hthere hlast
  rw [hafter]
  simp only [readBytes, lookup, hresolve, bind, Except.bind, hfile]

end LispDoc.FileTable
