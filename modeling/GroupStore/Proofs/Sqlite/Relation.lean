import GroupStore.Proofs.Sqlite.Names

/-!
# Tables with the rows of versions

A table that was created for a schema and filled through its statements has one row for each of some
keys.  A guard of a statement admits the rows whose keys, prefixes or exchange ids are the bound
ones, and which live.

* `Relation.SoundFor` — a table with the rows of some keys and versions;
* `Relation.SoundFor.key_admits`, `prefix_admits`, `condition_admits` — the three guards;
* `liveVersions` — the versions that live, by key.
-/

namespace GroupStore

namespace Sqlite

/-- Whether the moment of a version can be an integer of a cell. -/
def Bounded (v : Version) : Prop :=
  ∀ moment, v.expiresAt = some moment → (moment : Int) ≤ maxInteger

/-- A table created for a schema that has the rows of some keys and versions, one row a key. -/
structure Relation.SoundFor (r : Relation) (s : Schema) (entries : List (List Value × Version)) :
    Prop where
  definition : r.definition = s.definition
  distinct : s.definition.Distinct
  rows : r.rows.map Record.cells = entries.map fun e => rowCells e.1 e.2
  keys : (entries.map Prod.fst).Nodup
  fits : ∀ e ∈ entries, s.FitsKey e.1
  bounded : ∀ e ∈ entries, Bounded e.2

/-- The unexpired versions of some rows by key. -/
def liveVersions (entries : List (List Value × Version)) (now : Nat) (key : List Value) :
    Option Version :=
  (Sorted.get? key entries).filter (·.liveAt now)

section Tables

variable {r : Relation} {s : Schema} {entries : List (List Value × Version)} {b : Bound}
  {now : Nat} {c : Contents}

theorem Relation.SoundFor.of_layout {s' : Schema} (sound : r.SoundFor s entries)
    (layoutEq : s.layout = s'.layout) : r.SoundFor s' entries := by
  have definitions : s.definition = s'.definition := congrArg Definition.ofLayout layoutEq
  refine ⟨sound.definition.trans definitions, definitions ▸ sound.distinct, sound.rows, sound.keys,
    fun e member => ?_, sound.bounded⟩
  rw [Schema.FitsKey, ← layoutEq]
  exact sound.fits e member

/-- Some of the rows, chosen by what is stored in them. -/
theorem Relation.SoundFor.keep (sound : r.SoundFor s entries) {p : Record → Bool}
    {q : List Value × Version → Bool}
    (each : ∀ row ∈ r.rows, ∀ e ∈ entries, row.cells = rowCells e.1 e.2 → p row = q e) :
    Relation.SoundFor { r with rows := r.rows.filter p } s (entries.filter q) where
  definition := sound.definition
  distinct := sound.distinct
  rows := map_filter_of sound.rows each
  keys := (List.filter_sublist.map Prod.fst).nodup sound.keys
  fits := fun e member => sound.fits e (List.mem_filter.mp member).1
  bounded := fun e member => sound.bounded e (List.mem_filter.mp member).1

/-- Entries have been taken away iff a key had one that was to be taken. -/
theorem length_filter_key {entries : List (List Value × Version)}
    (distinct : (entries.map Prod.fst).Nodup) (key : List Value) (p : Version → Bool) :
    0 < entries.length - (entries.filter fun e => !(decide (e.1 = key) && p e.2)).length ↔
      (Sorted.get? key entries).any p = true := by
  let taken (e : List Value × Version) : Bool := decide (e.1 = key) && p e.2
  have parts : entries.length =
      (entries.filter taken).length + (entries.filter fun e => !taken e).length := by
    rw [List.length_eq_countP_add_countP taken, List.countP_eq_length_filter,
      List.countP_eq_length_filter]
    simp only [Bool.not_eq_true, Bool.decide_eq_false]
  rw [parts, Nat.add_sub_cancel, Sorted.filter_key distinct, List.length_map]
  cases Sorted.get? key entries with
  | none => simp
  | some v =>
    rw [Option.filter_some, Option.any_some]
    cases p v <;> simp

/-- What lives once the live version of a key is taken away if it is to be taken. -/
theorem liveVersions_filter {entries : List (List Value × Version)}
    (distinct : (entries.map Prod.fst).Nodup) (now : Nat) (key k : List Value)
    (p : Version → Bool) :
    liveVersions
      (entries.filter fun e => !(decide (e.1 = key) && (e.2.liveAt now && p e.2))) now k =
      if k = key then (liveVersions entries now key).filter fun v => !p v
      else liveVersions entries now k := by
  rw [liveVersions, liveVersions, liveVersions, Sorted.get?_filter distinct, Option.filter_filter]
  by_cases keyEq : k = key
  · rw [if_pos keyEq, keyEq, Option.filter_filter]
    congr 1
    funext v
    cases v.liveAt now <;> simp
  · rw [if_neg keyEq]
    congr 1
    funext v
    simp [keyEq]

/-- The cells of known columns are read as the values stored in them. -/
theorem readCells_columns {specs : List ColumnSpec} {values : List Value}
    (inside : ∀ spec ∈ specs, spec ∈ s.layout.columns)
    (kinds : values.map Value.kind = specs.map ColumnSpec.kind) :
    readCells s.layout (specs.map ColumnSpec.name) (values.map Cell.ofValue) =
      .ok ((columnNames specs).zip values) := by
  have lengthEq : specs.length = values.length := by simpa using (congrArg List.length kinds).symm
  have names : columnNames specs = (specs.map ColumnSpec.name).map Identifier.text := by
    rw [List.map_map]
    rfl
  rw [names]
  refine readCells_ofValue (by simpa using lengthEq) fun p found => ?_
  rw [List.zip_map_left] at found
  obtain ⟨⟨spec, value⟩, member, rfl⟩ := List.mem_map.mp found
  exact ⟨spec, s.column?_of_mem (inside spec (List.of_mem_zip member).1),
    (kind_of_mem_zip kinds member).symm⟩

/-- A guard compares stored with bound values and, if asked to, looks at what lives. -/
theorem guard_admits (now : Nat) (specs : List ColumnSpec) (stored bound : List Value) (live : Bool)
    (distinct : s.definition.Distinct) {key : List Value} (fits : s.FitsKey key) {v : Version}
    (bounded : Bounded v) {row : Record} (cells : row.cells = rowCells key v) {added : List Cell}
    (known : ∀ p ∈ specs.zip stored, p ∈ s.layout.columns.zip (storedValues key v))
    (sameStored : specs.length = stored.length)
    (kinds : bound.map Value.kind = specs.map ColumnSpec.kind)
    (clock : live = true → added = [.integer (reading now)]) :
    (⟨columnNames specs, live⟩ : Guard).admits s.definition (bound.map Cell.ofValue ++ added)
      row = (decide (stored = bound) && (!live || v.liveAt now)) := by
  have lengthEq : specs.length = bound.length := by simpa using (congrArg List.length kinds).symm
  rw [Guard.admits, matches_eq fits v cells distinct added known sameStored kinds]
  cases live with
  | false => rfl
  | true =>
    have moment : (⟨columnNames specs, true⟩ : Guard).reading (bound.map Cell.ofValue ++ added) =
        reading now := by
      have position : (bound.map Cell.ofValue).length = (columnNames specs).length := by
        simp [columnNames, lengthEq]
      rw [Guard.reading, List.getElem?_append_right (Nat.le_of_eq position), position,
        clock rfl]
      simp
    rw [moment, isLive_rowCells fits v cells distinct bounded]

/-! ### What guards admit -/

section Guards

variable (sound : r.SoundFor s entries)

include sound

/-- The guard on the whole key. -/
theorem Relation.SoundFor.key_admits {e : List Value × Version} (member : e ∈ entries)
    {row : Record} (cells : row.cells = rowCells e.1 e.2) {key : List Value} (fits : s.FitsKey key)
    (live : Bool) {added : List Cell}
    (clock : live = true → added = [.integer (reading now)]) :
    (⟨columnNames s.layout.primaryKey, live⟩ : Guard).admits r.definition
      (key.map Cell.ofValue ++ added) row =
        (decide (e.1 = key) && (!live || e.2.liveAt now)) := by
  have fitsKey := sound.fits e member
  rw [sound.definition]
  exact guard_admits now s.layout.primaryKey e.1 key live sound.distinct fitsKey
    (sound.bounded e member) cells (mem_stored_of_mem_key fitsKey e.2) fitsKey.length.symm
      fits clock

/-- The guard on the prefix, for a row under some prefix. -/
theorem Relation.SoundFor.prefix_admits {own : List Value} {group : String} {v : Version}
    (member : (own ++ [.text group], v) ∈ entries) {row : Record}
    (cells : row.cells = rowCells (own ++ [.text group]) v)
    (fits : s.FitsPrefix own) {fixed : List Value}
    (bound : s.FitsPrefix fixed) :
    (⟨columnNames s.prefixSpecs, true⟩ : Guard).admits r.definition
      (fixed.map Cell.ofValue ++ [.integer (reading now)]) row =
        (decide (own = fixed) && v.liveAt now) := by
  have fitsKey := sound.fits _ member
  have known : ∀ p ∈ s.prefixSpecs.zip own,
      p ∈ s.layout.columns.zip (storedValues (own ++ [.text group]) v) := by
    intro p found
    refine mem_stored_of_mem_key fitsKey v p ?_
    rw [s.layout_primaryKey, List.zip_append fits.length.symm]
    exact List.mem_append_left _ found
  rw [sound.definition, guard_admits now s.prefixSpecs own fixed true sound.distinct fitsKey
    (sound.bounded _ member) cells known fits.length.symm bound fun _ => rfl]
  rfl

/-- The guard on the whole key and the exchange id. -/
theorem Relation.SoundFor.condition_admits {e : List Value × Version} (member : e ∈ entries)
    {row : Record} (cells : row.cells = rowCells e.1 e.2) {key : List Value} (fits : s.FitsKey key)
    (id : String) :
    (⟨columnNames s.conditionSpecs, true⟩ : Guard).admits r.definition
      ((key ++ [Value.text id]).map Cell.ofValue ++ [.integer (reading now)]) row =
        (decide (e.1 = key) && (e.2.liveAt now && decide (e.2.id = id))) := by
  have fitsKey := sound.fits e member
  have known : ∀ p ∈ s.conditionSpecs.zip (e.1 ++ [.text e.2.id]),
      p ∈ s.layout.columns.zip (storedValues e.1 e.2) := by
    intro p found
    rw [Schema.conditionSpecs, List.zip_append fitsKey.length.symm] at found
    rw [zip_storedValues fitsKey e.2]
    rcases List.mem_append.mp found with own | last
    · exact List.mem_append_left _ own
    · exact List.mem_append_right _ (List.mem_cons.mpr (.inl (List.mem_singleton.mp last)))
  have kinds : (key ++ [Value.text id]).map Value.kind = s.conditionSpecs.map ColumnSpec.kind := by
    rw [List.map_append, fits, Schema.conditionSpecs, List.map_append]
    rfl
  have equal : decide (e.1 ++ [Value.text e.2.id] = key ++ [Value.text id]) =
      (decide (e.1 = key) && decide (e.2.id = id)) := by
    rw [← Bool.decide_and, decide_eq_decide]
    constructor
    · intro whole
      obtain ⟨keys, ids⟩ := List.append_inj' whole rfl
      exact ⟨keys, by simpa using ids⟩
    · rintro ⟨rfl, rfl⟩
      rfl
  rw [sound.definition, guard_admits now s.conditionSpecs (e.1 ++ [.text e.2.id])
    (key ++ [Value.text id]) true sound.distinct fitsKey (sound.bounded e member) cells known
    (by simp [Schema.conditionSpecs, fitsKey.length]) kinds fun _ => rfl, equal]
  simp only [Bool.not_true, Bool.false_or, Bool.and_assoc, Bool.and_comm (e.2.liveAt now)]

end Guards

end Tables

end Sqlite

end GroupStore
