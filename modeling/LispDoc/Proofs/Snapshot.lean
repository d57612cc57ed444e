import LispDoc.Proofs.Json.RoundTrip
import LispDoc.Proofs.Table
import LispDoc.Snapshot

/-!
# Restoring what was saved

An environment is restored from its snapshot as it was. For each part of an environment, from the value of a property up
to the whole, the document is read back as the part it was made from (`Snapshot.Restores`); with it goes that nothing is
amiss with the document (`Json.Whole`), so that its JSON text reads back as the document (`Json.parse_pretty`).

Two things cannot be saved faithfully and are excluded: floats, which are rounded again when they are read, and moments
before the epoch, which have no document.
-/

namespace LispDoc

namespace Datum

@[simp] theorem entriesToJson_eq_map (entries : List (String × Datum)) :
    entriesToJson entries = entries.map fun e => (e.1, e.2.toJson) := by
  induction entries with
  | nil => rw [entriesToJson]; rfl
  | cons e entries ih => rw [entriesToJson, ih]; rfl

@[simp] theorem itemsToJson_eq_map (items : List Datum) : itemsToJson items = items.map toJson := by
  induction items with
  | nil => rw [itemsToJson]; rfl
  | cons item items ih => rw [itemsToJson, ih]; rfl

end Datum

namespace Snapshot

/-- Nothing is amiss with the JSON value, and it is read as the given value. -/
structure Restores {α : Type} (read : Json → Option α) (value : α) (json : Json) : Prop where
  whole : json.Whole
  read_eq : read json = some value

/-! ### Lists and records -/

private theorem mapM_eq_some_map {α β : Type} {f : α → Option β} {g : α → β} {l : List α}
    (h : ∀ a ∈ l, f a = some (g a)) :
    l.mapM f = some (l.map g) := by
  induction l with
  | nil => rfl
  | cons a l ih =>
    rw [List.mapM_cons, h a (by simp), ih fun b hb => h b (by simp [hb])]
    rfl

/-- A list is read back from what was written if each of its members is. -/
private theorem mapM_map_eq_some {α β : Type} {write : α → β} {read : β → Option α} {l : List α}
    (h : ∀ a ∈ l, read (write a) = some a) : (l.map write).mapM read = some l := by
  rw [List.mapM_map, mapM_eq_some_map (f := read ∘ write) (g := id) h, List.map_id]

theorem pair?_object (closed : Bool) {first second : String} (h : first ≠ second) (a b : Json) :
    pair? closed first second (.object [(first, a), (second, b)]) = some (a, b) := by
  simp [pair?, fields?, h, h.symm]

theorem triple?_object {first second third : String} (h : first ≠ second) (h' : first ≠ third) (h'' : second ≠ third)
    (a b c : Json) :
    triple? first second third (.object [(first, a), (second, b), (third, c)]) = some (a, b, c) := by
  simp [triple?, fields?, h, h', h'', h.symm, h'.symm, h''.symm]

theorem whole_tagged {tag : String} {payload : Datum} (h : payload.toJson.Whole) :
    (Datum.tagged tag payload).toJson.Whole := by
  rw [Datum.toJson]
  refine .object fun m hm => ?_
  rw [List.mem_singleton] at hm
  rwa [hm]

theorem whole_table {entries : List (String × Datum)} (h : ∀ e ∈ entries, e.2.toJson.Whole) :
    (Datum.table entries).toJson.Whole := by
  rw [Datum.toJson, Datum.entriesToJson_eq_map]
  refine .object fun m hm => ?_
  obtain ⟨e, he, rfl⟩ := List.mem_map.1 hm
  exact h e he

theorem whole_text (text : String) : (Datum.text text).toJson.Whole := by
  rw [Datum.toJson]
  exact .string text

theorem string?_text (text : String) : (Datum.text text).toJson.string? = some text := by
  rw [Datum.toJson]
  rfl

private theorem whole_integer (n : Int) : (Datum.integer n).toJson.Whole := by
  rw [Datum.toJson]
  exact .integer n

private theorem whole_ofText? (text : Option String) : (Datum.ofText? text).toJson.Whole := by
  cases text with
  | none => rw [Datum.ofText?, Datum.toJson]; exact .null
  | some text => exact whole_text text

/-- A table is read back if its values are. -/
private theorem restores_table {α : Type} {read : Json → Option α} {write : α → Datum} (t : Table α)
    (h : ∀ value ∈ t.values, Restores read value (write value).toJson) :
    Restores (table? read) t (Datum.table (t.entries.map fun e => (e.1, write e.2))).toJson := by
  have hvalue : ∀ e ∈ t.entries, Restores read e.2 (write e.2).toJson :=
    fun e he => h e.2 (List.mem_map.2 ⟨e, he, rfl⟩)
  constructor
  · refine whole_table fun m hm => ?_
    obtain ⟨e, he, rfl⟩ := List.mem_map.1 hm
    exact (hvalue e he).whole
  · rw [Datum.toJson, Datum.entriesToJson_eq_map, List.map_map, table?, mapM_map_eq_some, Option.map_some,
      Table.ofList_entries]
    intro e he
    simp [(hvalue e he).read_eq]

/-! ### Symbols -/

private theorem text?_ofText? (text : Option String) : text? (some (Datum.ofText? text).toJson) = some text := by
  cases text <;> rw [Datum.ofText?, Datum.toJson] <;> rfl

private theorem restores_provenance (p : Provenance) : Restores provenance? p p.toDatum.toJson := by
  rw [Provenance.toDatum]
  constructor
  · exact whole_table (by simp [whole_ofText?])
  · simp [Datum.toJson, provenance?, fields?, text?_ofText?]

/-- The scopes with a definition, put in one after the other, are the scopes. -/
private theorem foldl_insert_toList (s : Scopes) :
    s.toList.foldl (fun s e => s.insert e.1 e.2) {} = s := by
  obtain ⟨function, var, face, struct⟩ := s
  cases function <;> cases var <;> cases face <;> cases struct <;> rfl

private theorem ofName?_name (scope : Scope) : Scope.ofName? scope.name = some scope := by
  cases scope <;> decide

theorem restores_scopes (s : Scopes) : Restores scopes? s s.toDatum.toJson := by
  rw [Scopes.toDatum]
  constructor
  · refine whole_table fun m hm => ?_
    obtain ⟨e, -, rfl⟩ := List.mem_map.1 hm
    exact (restores_provenance e.2).whole
  · rw [Datum.toJson, Datum.entriesToJson_eq_map, List.map_map, scopes?, mapM_map_eq_some, Option.bind_eq_bind,
      Option.bind_some, foldl_insert_toList]
    · rfl
    · intro e _
      simp [ofName?_name, (restores_provenance e.2).read_eq]

/-- The value of a property is read back unless it is a float. -/
theorem restores_property {v : PropertyValue} (h : ∀ x, v ≠ .float x) : Restores property? v v.toDatum.toJson := by
  cases v with
  | string text => exact ⟨whole_tagged (whole_text text), by simp [PropertyValue.toDatum, Datum.toJson, property?]⟩
  | integer value =>
    refine ⟨whole_tagged (whole_integer _), ?_⟩
    simp [PropertyValue.toDatum, Datum.toJson, property?, Json.toInt64?_ofInt]
  | float value => exact absurd rfl (h value)
  | bool value =>
    refine ⟨whole_tagged ?_, by simp [PropertyValue.toDatum, Datum.toJson, property?]⟩
    rw [Datum.toJson]
    exact .bool value
  | empty => exact ⟨whole_text _, by simp [PropertyValue.toDatum, Datum.toJson, property?]⟩
  | symbol name => exact ⟨whole_tagged (whole_text name), by simp [PropertyValue.toDatum, Datum.toJson, property?]⟩
  | list items =>
    have hread : (items.map Json.string).mapM Json.string? = some items := mapM_map_eq_some fun _ _ => rfl
    constructor
    · refine whole_tagged ?_
      rw [Datum.toJson, Datum.itemsToJson_eq_map, List.map_map]
      refine .array fun item hitem => ?_
      obtain ⟨text, -, rfl⟩ := List.mem_map.1 hitem
      exact whole_text text
    · simp [PropertyValue.toDatum, Datum.toJson, property?, Function.comp_def, hread]
  | version package number =>
    constructor
    · exact whole_tagged (whole_table (by simp [whole_text]))
    · simp [PropertyValue.toDatum, Datum.toJson, property?, pair?_object, Json.string?]

private theorem restores_symbol {s : Symbol} (h : ∀ v ∈ s.properties.values, ∀ x, v ≠ .float x) :
    Restores symbol? s s.toDatum.toJson := by
  have hscopes := restores_scopes s.scopes
  have hproperties := restores_table s.properties fun v hv => restores_property (h v hv)
  rw [Symbol.toDatum]
  constructor
  · exact whole_table (by simp [whole_text, hscopes.whole, hproperties.whole])
  · rw [Datum.toJson, Datum.entriesToJson_eq_map]
    simp [symbol?, triple?_object, string?_text, hscopes.read_eq, hproperties.read_eq]

/-! ### Features -/

private theorem toInt_nonneg_of_le {t : Time} (h : Time.epoch.le t = true) : 0 ≤ t.seconds.toInt := by
  have hzero : Time.epoch.seconds.toInt = 0 := by decide
  simp only [Time.le, Bool.or_eq_true, Bool.and_eq_true, decide_eq_true_eq, beq_iff_eq] at h
  rw [← hzero]
  rcases h with h | ⟨h, -⟩
  · exact Int.le_of_lt (Int64.lt_iff_toInt_lt.1 h)
  · exact Int.le_of_eq (by rw [h])

/-- Seconds and nanoseconds within their bounds are read as they stand; nothing is carried over. -/
private theorem time?_object {seconds nanos : Nat} (hfits : Digits.fitsInt64 seconds = true)
    (hnanos : nanos < 1000000000) :
    time? (.object [("secs_since_epoch", .ofInt seconds), ("nanos_since_epoch", .ofInt nanos)]) =
      some ⟨.ofInt seconds, Time.subsecond nanos⟩ := by
  have htotal : seconds + nanos / 1000000000 = seconds := by omega
  -- the reader asks for an unsigned word first and for a signed one after carrying
  have hlt : seconds < Digits.wordBound := by
    simp only [Digits.fitsInt64, Bool.and_eq_true, decide_eq_true_eq] at hfits
    simp only [Digits.wordBound]
    omega
  have hword : (Json.ofInt seconds).toNatBelow? Digits.wordBound = some seconds := Json.toNatBelow?_ofInt hlt
  have hpart : (Json.ofInt nanos).toNatBelow? 0x100000000 = some nanos := Json.toNatBelow?_ofInt (by omega)
  rw [time?, pair?_object true (by decide), Option.bind_eq_bind, Option.bind_some]
  dsimp only
  rw [hword, Option.bind_eq_bind, Option.bind_some, hpart, Option.bind_some, htotal, if_pos hfits]

/-- A moment that is not before the epoch has a document and is read back from it. -/
private theorem restores_time {t : Time} (h : Time.epoch.le t = true) :
    ∃ d, t.toDatum? = some d ∧ Restores time? t d.toJson := by
  have hnonneg := toInt_nonneg_of_le h
  obtain ⟨seconds, hseconds⟩ := Int.eq_ofNat_of_zero_le hnonneg
  have hfits : Digits.fitsInt64 (seconds : Int) = true := hseconds ▸ Digits.fitsInt64_toInt t.seconds
  have hback : Int64.ofInt (seconds : Int) = t.seconds := by rw [← hseconds, Int64.ofInt_toInt]
  refine ⟨_, if_neg ?_, ?_, ?_⟩
  · rw [Int64.lt_iff_toInt_lt]
    simpa using hnonneg
  · exact whole_table (by simp [whole_integer])
  · rw [Datum.toJson, Datum.entriesToJson_eq_map, List.map_cons, List.map_cons, List.map_nil, Datum.toJson, Datum.toJson,
      hseconds, time?_object hfits t.nanos.isLt, hback, Time.subsecond, Fin.ofNat_val_eq_self]

private theorem restores_feature {f : Feature} (h : Time.epoch.le f.loadTime = true) :
    ∃ d, f.toDatum? = some d ∧ Restores feature? f d.toJson := by
  obtain ⟨time, htime, hrestores⟩ := restores_time h
  refine ⟨_, by rw [Feature.toDatum?, htime, Option.map_some], ?_, ?_⟩
  · exact whole_table (by simp [whole_text, hrestores.whole])
  · rw [Datum.toJson, Datum.entriesToJson_eq_map]
    simp [feature?, triple?_object, string?_text, hrestores.read_eq]

/-- Features none of which was loaded before the epoch have documents and are read back from them. -/
theorem restores_features {features : Table Feature} (h : ∀ f ∈ features.values, Time.epoch.le f.loadTime = true) :
    ∃ data, (features.entries.mapM fun e => e.2.toDatum?.map (e.1, ·)) = some data ∧
      Restores (table? feature?) features (Datum.table data).toJson := by
  -- every feature has a document, the one that `toDatum?` finds
  have hfeature : ∀ f ∈ features.values, f.toDatum? = some (f.toDatum?.getD .null) ∧
      Restores feature? f (f.toDatum?.getD .null).toJson := by
    intro f hf
    obtain ⟨d, hd, hrestores⟩ := restores_feature (h f hf)
    rw [hd]
    exact ⟨rfl, hrestores⟩
  refine ⟨features.entries.map fun e => (e.1, e.2.toDatum?.getD .null), ?_,
    restores_table features fun f hf => (hfeature f hf).2⟩
  refine mapM_eq_some_map fun e he => ?_
  rw [(hfeature e.2 (List.mem_map.2 ⟨e, he, rfl⟩)).1]
  rfl

/-! ### Environments -/

/-- An environment without floats, with no feature loaded before the epoch, has a document and is read back from it. -/
private theorem restores_environment {env : Environment}
    (hfloat : ∀ s ∈ env.symbols.values, ∀ v ∈ s.properties.values, ∀ x, v ≠ .float x)
    (htime : ∀ f ∈ env.features.values, Time.epoch.le f.loadTime = true) :
    ∃ d, env.toDatum? = some d ∧ Restores environment? env d.toJson := by
  have hsymbols := restores_table env.symbols fun s hs => restores_symbol (hfloat s hs)
  obtain ⟨data, hdata, hfeatures⟩ := restores_features htime
  refine ⟨_, by rw [Environment.toDatum?, hdata]; rfl, ?_, ?_⟩
  · exact whole_table (by simp [hsymbols.whole, hfeatures.whole])
  · rw [Datum.toJson, Datum.entriesToJson_eq_map]
    simp [environment?, pair?_object, hsymbols.read_eq, hfeatures.read_eq]

/-! ### Texts and files -/

/-- Bytes that a text was written as are read as that text. -/
theorem readText_of_readBytes {files : FileTable} {path text : String}
    (h : files.readBytes path = .ok text.toUTF8) : files.readText path = .ok text := by
  have hvalid : String.fromUTF8? text.toUTF8 = some text := by
    rw [String.fromUTF8?, String.toUTF8_eq_toByteArray, dif_pos text.isValidUTF8]
    rfl
  simp only [FileTable.readText, h, bind, Except.bind, hvalid]

/-- An environment without floats, none of whose features was loaded before the epoch, can be written, and what is
written is read back as the environment. So saving it fails only if the file cannot be written, and if the file then
holds the bytes that were written, loading it restores the environment. -/
theorem load_of_save (env : Environment)
    (hfloat : ∀ s ∈ env.symbols.values, ∀ v ∈ s.properties.values, ∀ x, v ≠ .float x)
    (htime : ∀ f ∈ env.features.values, Time.epoch.le f.loadTime = true) :
    ∃ text, write? env = some text ∧ read? text = some env ∧
      ∀ (files after : FileTable) (path : String), files.writeText path text = .ok after →
        save files env path = .ok after ∧
          (after.readBytes path = .ok text.toUTF8 → load after path = .ok env) := by
  obtain ⟨d, hd, hrestores⟩ := restores_environment hfloat htime
  have hwrite : write? env = some (String.ofList (d.toJson.pretty 0)) := by rw [write?, hd, Option.map_some]
  have hread : read? (String.ofList (d.toJson.pretty 0)) = some env := by
    rw [read?, Json.parse_pretty hrestores.whole, Option.bind_some, hrestores.read_eq]
  refine ⟨_, hwrite, hread, fun files after path hafter => ⟨?_, fun hbytes => ?_⟩⟩
  · simp only [save, hwrite, hafter]
  · simp only [load, readText_of_readBytes hbytes, hread]

/-- A symbol and a feature that are stored under other names than their own, with values of every sort but floats. -/
def renamed : Environment where
  symbols := ⟨[("key\"", ⟨"a\\\n\x01é", { function := some ⟨some "a\tb.el", none⟩, struct := some {} },
    ⟨[("a", .integer (-9223372036854775808)), ("b", .list ["x", "😀"]), ("c", .version "p" "1.0"), ("d", .empty),
      ("e", .string ""), ("f", .bool false), ("g", .symbol "h")], by decide⟩⟩)], by decide⟩
  features := ⟨[("f", ⟨"g", "g.el", ⟨1750000000, Time.subsecond 999999999⟩⟩)], by decide⟩

theorem load_of_save_renamed :
    (∀ s ∈ renamed.symbols.values, ∀ v ∈ s.properties.values, ∀ x, v ≠ .float x) ∧
      (∀ f ∈ renamed.features.values, Time.epoch.le f.loadTime = true) ∧
      ∃ after, save (.empty .epoch) renamed "s" = .ok after ∧ load after "s" = .ok renamed := by
  have hfloat : ∀ s ∈ renamed.symbols.values, ∀ v ∈ s.properties.values, ∀ x, v ≠ .float x := by
    simp only [renamed, Table.values, List.map_cons, List.map_nil, List.forall_mem_cons, List.not_mem_nil]
    simp
  have htime : ∀ f ∈ renamed.features.values, Time.epoch.le f.loadTime = true := by decide
  obtain ⟨text, -, -, hfiles⟩ := load_of_save renamed hfloat htime
  obtain ⟨after, hwrite, hbytes⟩ : ∃ after, (FileTable.empty .epoch).writeText "s" text = .ok after ∧
      after.readBytes "s" = .ok text.toUTF8 := ⟨_, rfl, rfl⟩
  obtain ⟨hsave, hload⟩ := hfiles _ after "s" hwrite
  exact ⟨hfloat, htime, after, hsave, hload hbytes⟩

end Snapshot

end LispDoc
