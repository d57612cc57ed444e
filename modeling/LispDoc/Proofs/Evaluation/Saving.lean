import LispDoc.Proofs.Evaluation.References
import LispDoc.Proofs.Files
import LispDoc.Proofs.Json.Float
import LispDoc.Proofs.Sexp.Equality
import LispDoc.Proofs.Snapshot

/-!
# Which snapshots can be restored

An environment with floats can be saved, but a float that is not finite is written as null, which is not read as a
float. Such a value can be stored: an atom like `1e999` is read as an infinite float, and a property setting takes it.

The snapshot of what a text leaves behind is rejected for this reason and for no other (`load_of_save_evalText`): if all
floats are finite, it is accepted.
-/

namespace LispDoc

/-- All floats among the properties are finite. -/
def Environment.Finite (env : Environment) : Prop :=
  ∀ name property x, env.property? name property = some (.float x) → x.isFinite = true

namespace Snapshot

/-- Nothing is amiss with the JSON value, and it is read, as whatever value, exactly under the condition. -/
structure Accepts {α : Type} (read : Json → Option α) (condition : Prop) (json : Json) : Prop where
  whole : json.Whole
  isSome_iff : (read json).isSome = true ↔ condition

theorem Restores.accepts {α : Type} {read : Json → Option α} {value : α} {json : Json} {condition : Prop}
    (h : Restores read value json) (hcondition : condition) : Accepts read condition json := by
  refine ⟨h.whole, ?_⟩
  rw [h.read_eq]
  exact iff_of_true rfl hcondition

/-! ### Floats -/

private theorem whole_floatToJson (x : Binary64) : (Datum.floatToJson x).Whole := by
  rw [Datum.floatToJson]
  split
  · obtain ⟨parts, hproper, htext, -⟩ := Datum.exists_parts_write x
    rw [← htext]
    exact .number hproper
  · exact .null

private theorem accepts_property (v : PropertyValue) :
    Accepts property? (∀ x, v = .float x → x.isFinite = true) v.toDatum.toJson := by
  cases v with
  | float x =>
    have hwhole : (Datum.float x).toJson.Whole := by
      rw [Datum.toJson]
      exact whole_floatToJson x
    refine ⟨whole_tagged hwhole, ?_⟩
    simp [PropertyValue.toDatum, Datum.toJson, property?, Datum.isSome_toBinary64?_floatToJson]
  | _ => exact (restores_property (by simp)).accepts (by simp)

/-! ### Tables and records -/

private theorem isSome_mapM_iff {α β : Type} {f : α → Option β} {l : List α} :
    (l.mapM f).isSome = true ↔ ∀ a ∈ l, (f a).isSome = true := by
  induction l with
  | nil => simp
  | cons a l ih =>
    rw [List.mapM_cons, List.forall_mem_cons, ← ih]
    cases f a <;> cases l.mapM f <;> simp

/-- A table is accepted if its values are. -/
private theorem accepts_table {α : Type} {read : Json → Option α} {write : α → Datum} {condition : α → Prop}
    (t : Table α) (h : ∀ value ∈ t.values, Accepts read (condition value) (write value).toJson) :
    Accepts (table? read) (∀ value ∈ t.values, condition value)
      (Datum.table (t.entries.map fun e => (e.1, write e.2))).toJson := by
  constructor
  · refine whole_table fun m hm => ?_
    obtain ⟨e, he, rfl⟩ := List.mem_map.1 hm
    exact (h e.2 (List.mem_map.2 ⟨e, he, rfl⟩)).whole
  · rw [Datum.toJson, Datum.entriesToJson_eq_map, List.map_map, table?, Option.isSome_map, isSome_mapM_iff,
      List.forall_mem_map, Table.values, List.forall_mem_map]
    refine forall₂_congr fun e he => ?_
    rw [Option.isSome_map]
    exact (h e.2 (List.mem_map.2 ⟨e, he, rfl⟩)).isSome_iff

private theorem accepts_symbol (s : Symbol) :
    Accepts symbol? (∀ v ∈ s.properties.values, ∀ x, v = .float x → x.isFinite = true) s.toDatum.toJson := by
  have hscopes := restores_scopes s.scopes
  have hproperties := accepts_table s.properties fun v _ => accepts_property v
  rw [Symbol.toDatum]
  constructor
  · exact whole_table (by simp [whole_text, hscopes.whole, hproperties.whole])
  · rw [Datum.toJson, Datum.entriesToJson_eq_map, ← hproperties.isSome_iff]
    simp [symbol?, triple?_object, string?_text, hscopes.read_eq, Option.isSome_bind]

/-! ### Environments -/

/-- The floats of an environment, found by name or one symbol after the other. -/
private theorem finite_iff {env : Environment} :
    env.Finite ↔ ∀ s ∈ env.symbols.values, ∀ v ∈ s.properties.values, ∀ x, v = .float x → x.isFinite = true := by
  constructor
  · rintro h s hs v hv x rfl
    obtain ⟨name, hname⟩ := Table.mem_values_iff.1 hs
    obtain ⟨property, hproperty⟩ := Table.mem_values_iff.1 hv
    refine h name property x ?_
    rw [Environment.property?, Environment.lookup, hname, Option.bind_some, Symbol.property?, hproperty]
  · intro h name property x hx
    obtain ⟨s, hs, hproperty⟩ := Option.bind_eq_some_iff.1 hx
    exact h s (Table.mem_values_iff.2 ⟨name, hs⟩) _ (Table.mem_values_iff.2 ⟨property, hproperty⟩) x rfl

/-- An environment none of whose features was loaded before the epoch can be written. What is written is read exactly if
all floats are finite. -/
private theorem exists_write? {env : Environment} (htime : ∀ f ∈ env.features.values, Time.epoch.le f.loadTime = true) :
    ∃ text, write? env = some text ∧ ((read? text).isSome = true ↔ env.Finite) := by
  have hsymbols := accepts_table env.symbols fun s _ => accepts_symbol s
  obtain ⟨data, hdata, hfeatures⟩ := restores_features htime
  obtain ⟨d, hd, haccepts⟩ : ∃ d, env.toDatum? = some d ∧ Accepts environment? env.Finite d.toJson := by
    refine ⟨_, by rw [Environment.toDatum?, hdata]; rfl, ?_, ?_⟩
    · exact whole_table (by simp [hsymbols.whole, hfeatures.whole])
    · rw [finite_iff, ← hsymbols.isSome_iff, Datum.toJson, Datum.entriesToJson_eq_map]
      simp [environment?, pair?_object, hfeatures.read_eq, Option.isSome_bind]
  refine ⟨_, by rw [write?, hd, Option.map_some], ?_⟩
  rw [read?, Json.parse_pretty haccepts.whole, Option.bind_some, haccepts.isSome_iff]

/-- What was saved is accepted exactly if all floats are finite. -/
private theorem load_of_save_cases {env : Environment}
    (htime : ∀ f ∈ env.features.values, Time.epoch.le f.loadTime = true)
    {files after : FileTable} {path : String} (h : save files env path = .ok after) :
    (env.Finite ∧ ∃ restored, load after path = .ok restored) ∨
      (¬ env.Finite ∧ load after path = .error .snapshot) := by
  obtain ⟨text, hwrite, hread⟩ := exists_write? htime
  have hafter : files.writeText path text = .ok after := by
    cases hfile : files.writeText path text with
    | ok _ => simpa [save, hwrite, hfile] using h
    | error error => simp [save, hwrite, hfile] at h
  have hbytes := FileTable.readBytes_of_writeText hafter
  simp only [load, readText_of_readBytes hbytes, ← hread]
  cases read? text with
  | some restored => exact .inl ⟨rfl, restored, rfl⟩
  | none => exact .inr ⟨Bool.false_ne_true, rfl⟩

/-- In an empty working directory a file can be written. -/
private theorem exists_save {env : Environment} (htime : ∀ f ∈ env.features.values, Time.epoch.le f.loadTime = true) :
    ∃ after, save (.empty .epoch) env "s" = .ok after := by
  obtain ⟨text, hwrite, -⟩ := exists_write? htime
  obtain ⟨after, hafter⟩ : ∃ after, (FileTable.empty .epoch).writeText "s" text = .ok after := ⟨_, rfl⟩
  exact ⟨after, by simp only [save, hwrite, hafter]⟩

end Snapshot

private theorem forall_loadTime_evalText (context : Provenance) (text : String) :
    ∀ f ∈ (evalText {} context .empty text).env.features.values, Time.epoch.le f.loadTime = true := by
  rw [Environment.env_evalText, Environment.features_writeAll]
  exact fun f hf => absurd hf List.not_mem_nil

/-- Once a text has been read and evaluated from nothing, as far as it goes, and the environment has been saved, it can
be restored exactly if all floats are finite. -/
theorem load_of_save_evalText (context : Provenance) (text : String) {files after : FileTable} {path : String}
    (h : Snapshot.save files (evalText {} context .empty text).env path = .ok after) :
    ((evalText {} context .empty text).env.Finite ∧ ∃ restored, Snapshot.load after path = .ok restored) ∨
      (¬ (evalText {} context .empty text).env.Finite ∧ Snapshot.load after path = .error .snapshot) :=
  Snapshot.load_of_save_cases (forall_loadTime_evalText context text) h

attribute [local instance] Sexp.decEq

theorem load_of_save_evalText_zero :
    ∃ after restored,
      Snapshot.save (.empty .epoch) (evalText {} {} .empty "(put 'a 'b 0.0)").env "s" = .ok after ∧
        Snapshot.load after "s" = .ok restored := by
  have hread : Sexp.readForms "(put 'a 'b 0.0)" =
      .ok [.list [.symbol "put", .quoted (.symbol "a"), .quoted (.symbol "b"), .float (.ofMagnitude false 0)]] := by
    decide +kernel
  have henv : (evalText {} {} .empty "(put 'a 'b 0.0)").env = _ :=
    congrArg Prod.fst (Declaration.ending_evalText {} .empty hread (Sexp.sanitize_of_mem rfl))
  have hsymbols : (evalText {} {} .empty "(put 'a 'b 0.0)").env.symbols.values =
      [⟨"a", {}, ⟨[("b", .float (.ofMagnitude false 0))], by simp⟩⟩] := by
    rw [henv]
    decide
  have hfinite : (evalText {} {} .empty "(put 'a 'b 0.0)").env.Finite := by
    have hzero : (Binary64.ofMagnitude false 0).isFinite = true := by decide
    rw [Snapshot.finite_iff, hsymbols]
    simp [Table.values, hzero]
  obtain ⟨after, hsave⟩ := Snapshot.exists_save (forall_loadTime_evalText {} "(put 'a 'b 0.0)")
  rcases load_of_save_evalText {} "(put 'a 'b 0.0)" hsave with ⟨-, restored, hload⟩ | ⟨hinfinite, -⟩
  · exact ⟨after, restored, hsave, hload⟩
  · exact absurd hfinite hinfinite

/-- A property is set to an infinite float without complaint, and the environment is saved, but not restored. -/
theorem load_of_save_infinite :
    (evalText {} {} .empty "(put 'a 'b 1e999)").outcome = .ok (some (.float (.infinity false))) ∧
      ∃ after, Snapshot.save (.empty .epoch) (evalText {} {} .empty "(put 'a 'b 1e999)").env "s" = .ok after ∧
        Snapshot.load after "s" = .error .snapshot := by
  have hread : Sexp.readForms "(put 'a 'b 1e999)" =
      .ok [.list [.symbol "put", .quoted (.symbol "a"), .quoted (.symbol "b"), .float (.infinity false)]] := by
    decide +kernel
  have hput : evalText {} {} .empty "(put 'a 'b 1e999)" = Definition.put {} "put"
      [.quoted (.symbol "a"), .quoted (.symbol "b"), .float (.infinity false)] .empty := by
    rw [evalText, hread]
    simp only [evalForms]
    rw [Declaration.evalForm_call {} {} .empty rfl]
    rfl
  have hproperty : (evalText {} {} .empty "(put 'a 'b 1e999)").env.property? "a" "b" =
      some (.float (.infinity false)) := by
    rw [hput]
    decide
  have htime := forall_loadTime_evalText {} "(put 'a 'b 1e999)"
  refine ⟨by rw [hput]; rfl, ?_⟩
  obtain ⟨after, hsave⟩ := Snapshot.exists_save htime
  refine ⟨after, hsave, ?_⟩
  rcases Snapshot.load_of_save_cases htime hsave with ⟨hfinite, -⟩ | ⟨-, hload⟩
  · exact absurd (hfinite "a" "b" _ hproperty) (by decide)
  · exact hload

end LispDoc
