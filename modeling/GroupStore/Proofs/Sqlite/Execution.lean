import GroupStore.Proofs.Sqlite.Relation

/-!
# Executing the statements of a schema on a database table

The SQL of each of the five statements is run on a table that was created for the schema and
filled through such statements.  What it does to the rows and returns is what the statement means.

* `Relation.Runs` — what the SQL of a statement achieves;
* `InTime` — what is written now expires at a moment that fits into a cell;
* `Relation.SoundFor.execute` — the SQL does what the statement means, as long as this is so.
-/

namespace GroupStore

namespace Sqlite

section Tables

variable {r : Relation} {s : Schema} {entries : List (List Value × Version)} {b : Bound}
  {now : Nat} {c : Contents}

/-- What the SQL of a statement achieves on a table: it is answered, the table has again the rows
of some keys and versions, and these are what the statement means. -/
def Relation.Runs (r : Relation) (s : Schema) (b : Bound) (now : Nat) (c : Contents)
    (kind : StatementKind) : Prop :=
  ∃ raw r' entries' answer, r.run (s.sql kind) (parameters b now) = .ok (raw, r') ∧
    readAnswer b.template raw = .ok answer ∧ r'.SoundFor s entries' ∧
    s.Means False now c kind b.values answer
      (c.withTable s.settings.table (liveVersions entries' now))

/-- Whether what is written now expires at a moment that fits into a cell. -/
def InTime (s : Schema) (now : Nat) : Prop :=
  ∀ seconds, s.settings.ttlSeconds = some seconds →
    ((now + 1000 * seconds : Nat) : Int) ≤ maxInteger

/-- What fits later fits now. -/
theorem InTime.earlier {later : Nat} (inTime : InTime s later) (order : now ≤ later) :
    InTime s now := by
  intro seconds ttl
  have top := inTime seconds ttl
  omega

theorem expiry_inTime (inTime : InTime s now) :
    expiry s.settings.ttlSeconds now = momentCell (Version.expiry s.settings.ttlSeconds now) ∧
      ∀ moment, Version.expiry s.settings.ttlSeconds now = some moment →
        (moment : Int) ≤ maxInteger := by
  cases ttl : s.settings.ttlSeconds with
  | none => exact ⟨rfl, fun _ never => by cases never⟩
  | some seconds =>
    have top := inTime seconds ttl
    have below : now + 1000 * seconds ≤ Memory.maxTime := by
      unfold Memory.maxTime
      unfold maxInteger at top
      omega
    have moment : Version.expiry (some seconds) now = some (now + 1000 * seconds) := by
      rw [Version.expiry, Option.map_some, Nat.min_eq_left below]
    rw [moment]
    refine ⟨?_, fun m momentEq => by cases momentEq; exact top⟩
    simp only [expiry, momentCell, reading, Cell.integer.injEq]
    unfold maxInteger at top ⊢
    omega

variable (sound : r.SoundFor s entries)
  (agrees : ∀ key, c s.settings.table key = liveVersions entries now key)

include sound agrees

theorem Relation.SoundFor.insert (hb : b.template = s.template .insert)
    (inTime : InTime s now) : r.Runs s b now c .insert := by
  obtain ⟨key, exchangeId, payload, values, fits⟩ := Bound.insert_values hb
  let v : Version := ⟨exchangeId, payload, Version.expiry s.settings.ttlSeconds now⟩
  obtain ⟨moment, bounded⟩ := expiry_inTime inTime
  have bound : parameters b now = rowCells key v := by
    rw [parameters, values, hb, rowCells, storedValues]
    exact congrArg (fun cell => _ ++ [cell]) moment
  let entries' := Sorted.drop key entries ++ [(key, v)]
  let row : Record := ⟨r.nextNumber, rowCells key v⟩
  have replaced : ∀ old ∈ r.rows, ∀ e ∈ entries, old.cells = rowCells e.1 e.2 →
      (!r.definition.replaces row old) = decide (e.1 ≠ key) := by
    intro old present e member cells
    rw [Relation.replaces_next _ present, sound.definition,
      sameKey_rowCells (sound.fits e member) e.2 cells sound.distinct fits v rfl, ← decide_not]
  have dropped := sound.keep replaced
  refine ⟨⟨[], 1⟩,
    { r with rows := r.rows.filter (fun old => !r.definition.replaces row old) ++ [row] },
    entries', .empty, ?_, by rw [hb]; rfl, ⟨sound.definition, sound.distinct, ?_, ?_, ?_, ?_⟩,
    key, exchangeId, payload, values, rfl, ?_⟩
  · have number : r.numberFor? (s.columns.map Identifier.text ++ [expiryColumn]) (rowCells key v) =
        some r.nextNumber := by
      rw [Relation.numberFor?, sound.definition, assignedNumber?_values sound.distinct]
    rw [Schema.sql, bound, Relation.run]
    simp only [number]
    simp only [sound.definition, cellsOf_values fits v sound.distinct, missing?_rowCells fits v]
    rfl
  · rw [List.map_append, dropped.rows, List.map_append]
    rfl
  · have dropped : ((Sorted.drop key entries).map Prod.fst).Nodup :=
      (List.filter_sublist.map Prod.fst).nodup sound.keys
    rw [List.map_append, List.nodup_append]
    refine ⟨dropped, by simp, fun k old k' new keyEq => ?_⟩
    obtain ⟨e, member, rfl⟩ := List.mem_map.mp old
    have other := (List.mem_filter.mp member).2
    simp only [List.map_cons, List.map_nil, List.mem_singleton] at new
    simp [keyEq, new] at other
  · intro e member
    rcases List.mem_append.mp member with old | new
    · exact sound.fits e (List.mem_filter.mp old).1
    · rw [List.mem_singleton.mp new]
      exact fits
  · intro e member
    rcases List.mem_append.mp member with old | new
    · exact sound.bounded e (List.mem_filter.mp old).1
    · rw [List.mem_singleton.mp new]
      exact bounded
  · refine Contents.withTable_eq_set fun k => ?_
    rw [agrees, liveVersions, Sorted.get?_append, Sorted.get?_drop]
    by_cases keyEq : k = key
    · rw [if_pos keyEq, if_pos keyEq, Option.none_or, Sorted.get?_cons, if_pos keyEq]
    · rw [if_neg keyEq, if_neg keyEq, Sorted.get?_cons, if_neg keyEq, Sorted.get?_nil,
        Option.or_none]
      rfl

theorem Relation.SoundFor.selectByKey (hb : b.template = s.template .selectByKey) :
    r.Runs s b now c .selectByKey := by
  have fits := Bound.selectByKey_values hb
  have bound : parameters b now = b.values.map Cell.ofValue ++ [.integer (reading now)] := by
    rw [parameters, hb]
    rfl
  have admitted : (r.rows.filter ((⟨columnNames s.layout.primaryKey, true⟩ : Guard).admits
      r.definition (parameters b now))).map Record.cells =
        ((liveVersions entries now b.values).toList.map fun v => (b.values, v)).map
          fun e => rowCells e.1 e.2 := by
    rw [liveVersions, ← Sorted.filter_key sound.keys]
    refine map_filter_of sound.rows fun row _ e member cells => ?_
    rw [bound]
    exact sound.key_admits member cells fits true fun _ => rfl
  let selected := (liveVersions entries now b.values).toList
  refine ⟨⟨selected.map fun v => (storedValues b.values v).map Cell.ofValue, 0⟩, r, entries,
    ⟨selected.map (s.fullRow b.values)⟩, ?_, ?_, sound, ?_, ?_⟩
  · rw [Schema.sql, Relation.run]
    rw [List.map_map] at admitted
    simp only [Except.ok.injEq, Prod.mk.injEq, Answer.mk.injEq, and_true]
    refine map_eq_map_of admitted fun row _ v _ cells => ?_
    rw [sound.definition, s.columns_texts]
    exact cells_rowCells fits v cells sound.distinct (storedValues_length fits v)
      fun _ found => found
  · have reads : ∀ v ∈ selected, readCells s.layout s.columns
        ((storedValues b.values v).map Cell.ofValue) =
          .ok ((s.columns.map Identifier.text).zip (storedValues b.values v)) := by
      intro v _
      rw [s.columns_texts, ← s.layout_columns_names]
      exact readCells_columns (fun _ found => found) (storedValues_kinds fits v)
    have kind : b.template.kind = .selectByKey := by rw [hb, s.template_kind]
    have shape : b.template.layout = s.layout ∧ b.template.projection = s.columns := by
      rw [hb]
      exact ⟨rfl, rfl⟩
    simp only [readAnswer, kind, shape, readRows_map reads]
    rfl
  · rw [agrees]
  · exact Contents.withTable_eq_self fun key => (agrees key).symm

theorem Relation.SoundFor.deleteByKey (hb : b.template = s.template .deleteByKey) :
    r.Runs s b now c .deleteByKey := by
  have fits := Bound.deleteByKey_values hb
  have bound : parameters b now = b.values.map Cell.ofValue ++ [] := by
    rw [parameters, hb]
    rfl
  have left : ∀ row ∈ r.rows, ∀ e ∈ entries, row.cells = rowCells e.1 e.2 →
      (!(⟨columnNames s.layout.primaryKey, false⟩ : Guard).admits r.definition
        (parameters b now) row) = decide (e.1 ≠ b.values) := by
    intro row _ e member cells
    have clockless : false = true → [] = [Cell.integer (reading now)] :=
      fun absurd => Bool.noConfusion absurd
    rw [bound, sound.key_admits member cells fits false clockless]
    simp
  let rows := r.rows.filter fun row => !(⟨columnNames s.layout.primaryKey, false⟩ : Guard).admits
    r.definition (parameters b now) row
  refine ⟨⟨[], r.rows.length - rows.length⟩, { r with rows }, Sorted.drop b.values entries, .empty,
    rfl, by rw [hb]; rfl, sound.keep left, rfl, ?_⟩
  · refine Contents.withTable_eq_set fun key => ?_
    rw [agrees, liveVersions, Sorted.get?_drop]
    by_cases keyIs : key = b.values
    · rw [if_pos keyIs, if_pos keyIs]
      rfl
    · rw [if_neg keyIs, if_neg keyIs]
      rfl

/-- The place of a group under a prefix. -/
def placed (fixed : List Value) (entry : String × Version) : List Value × Version :=
  (fixed ++ [.text entry.1], entry.2)

/-- A scan admits the rows of the groups that the contents list. -/
theorem Relation.SoundFor.exists_listed {fixed : List Value} (fits : s.FitsPrefix fixed) :
    ∃ found, c.Lists s.settings.table fixed found ∧
      (r.rows.filter ((⟨columnNames s.prefixSpecs, true⟩ : Guard).admits r.definition
        (fixed.map Cell.ofValue ++ [.integer (reading now)]))).map Record.cells =
          (found.map (placed fixed)).map fun e => rowCells e.1 e.2 := by
  let passes (e : List Value × Version) : Bool :=
    (⟨columnNames s.prefixSpecs, true⟩ : Guard).admits r.definition
      (fixed.map Cell.ofValue ++ [.integer (reading now)]) ⟨0, rowCells e.1 e.2⟩
  have admitted := map_filter_of (q := passes) sound.rows fun row _ e member cells => by
    obtain ⟨own, group, split, fitsOwn⟩ := (sound.fits e member).exists_group
    obtain ⟨key, v⟩ := e
    obtain rfl : key = own ++ [.text group] := split
    exact (sound.prefix_admits member cells fitsOwn fits).trans
      (sound.prefix_admits member rfl fitsOwn fits).symm
  have images : ∀ e ∈ entries.filter passes, ∃ entry, e = placed fixed entry := by
    intro e member
    obtain ⟨inside, passed⟩ := List.mem_filter.mp member
    obtain ⟨own, group, split, fitsOwn⟩ := (sound.fits e inside).exists_group
    obtain ⟨key, v⟩ := e
    obtain rfl : key = own ++ [.text group] := split
    rw [show passes (own ++ [.text group], v) = _ from
      sound.prefix_admits inside rfl fitsOwn fits, Bool.and_eq_true, decide_eq_true_eq] at passed
    exact ⟨(group, v), by rw [placed, passed.1]⟩
  obtain ⟨found, selected⟩ := exists_map_eq images
  refine ⟨found, ⟨?_, fun group v => ?_⟩, by rw [← selected]; exact admitted⟩
  · have keys := (List.filter_sublist (p := passes)).map Prod.fst |>.nodup sound.keys
    rw [selected, List.map_map, List.Nodup, List.pairwise_map] at keys
    rw [List.Nodup, List.pairwise_map]
    refine keys.imp fun differ keyEq => differ ?_
    simp only [Function.comp_apply, placed, keyEq]
  · have image : (group, v) ∈ found ↔ placed fixed (group, v) ∈ entries.filter passes := by
      rw [selected]
      refine ⟨List.mem_map_of_mem, fun member => ?_⟩
      obtain ⟨entry, inside, placedEq⟩ := List.mem_map.mp member
      simp only [placed, Prod.mk.injEq, List.append_cancel_left_eq, List.cons.injEq, and_true,
        Value.text.injEq] at placedEq
      rw [← placedEq.1, ← placedEq.2]
      exact inside
    rw [image, List.mem_filter, agrees, liveVersions, Option.filter_eq_some_iff,
      Sorted.get?_eq_some_iff sound.keys]
    refine and_congr_right fun member => ?_
    rw [show passes (placed fixed (group, v)) = _ from
      sound.prefix_admits member rfl fits fits]
    simp

omit agrees in
/-- What a scan returns of the row of a group. -/
theorem Relation.SoundFor.cells_identity {fixed : List Value} (fits : s.FitsPrefix fixed)
    (entry : String × Version) {row : Record}
    (cells : row.cells = rowCells (placed fixed entry).1 (placed fixed entry).2) :
    [s.keyColumn.text, s.exchangeIdColumn.text].map (r.definition.cell row) =
      [Value.text entry.1, .text entry.2.id].map Cell.ofValue := by
  have fitsKey : s.FitsKey (placed fixed entry).1 := fits.fitsKey entry.1
  rw [sound.definition]
  show (columnNames [⟨s.keyColumn, .text⟩, ⟨s.exchangeIdColumn, .text⟩]).map _ = _
  refine cells_rowCells fitsKey entry.2 cells sound.distinct rfl fun p own => ?_
  rw [zip_storedValues fitsKey entry.2, s.layout_primaryKey, placed,
    List.zip_append fits.length.symm]
  simp only [List.zip_cons_cons, List.zip_nil_left, List.mem_cons, List.not_mem_nil,
    or_false] at own
  rcases own with rfl | rfl <;> simp

theorem Relation.SoundFor.selectKeyAndId (hb : b.template = s.template .selectKeyAndId) :
    r.Runs s b now c .selectKeyAndId := by
  have fits := Bound.selectKeyAndId_values hb
  have bound : parameters b now = b.values.map Cell.ofValue ++ [.integer (reading now)] := by
    rw [parameters, hb]
    rfl
  obtain ⟨found, listed, admitted⟩ := sound.exists_listed agrees fits
  let cells (entry : String × Version) : List Value := [.text entry.1, .text entry.2.id]
  let specs : List ColumnSpec := [⟨s.keyColumn, .text⟩, ⟨s.exchangeIdColumn, .text⟩]
  refine ⟨⟨found.map fun entry => (cells entry).map Cell.ofValue, 0⟩, r, entries,
    ⟨found.map fun entry => s.idRow entry.1 entry.2.id⟩, ?_, ?_, sound, found, listed,
    fun absurd => absurd.elim, rfl, Contents.withTable_eq_self fun key => (agrees key).symm⟩
  · rw [Schema.sql, Relation.run, bound]
    rw [List.map_map] at admitted
    simp only [Except.ok.injEq, Prod.mk.injEq, Answer.mk.injEq, and_true]
    exact map_eq_map_of admitted fun row _ entry _ stored => sound.cells_identity fits entry stored
  · have kind : b.template.kind = .selectKeyAndId := by rw [hb, s.template_kind]
    have shape : b.template.layout = s.layout ∧
        b.template.projection = specs.map ColumnSpec.name := by
      rw [hb]
      exact ⟨rfl, rfl⟩
    have reads : ∀ entry ∈ found, readCells s.layout (specs.map ColumnSpec.name)
        ((cells entry).map Cell.ofValue) = .ok ((columnNames specs).zip (cells entry)) := by
      intro entry _
      refine readCells_columns (fun spec inside => ?_) rfl
      refine s.parameterSpecs_subset .conditionalDelete spec ?_
      rw [Schema.parameterSpecs, s.layout_primaryKey]
      simp only [specs, List.mem_cons, List.not_mem_nil, or_false] at inside
      rcases inside with rfl | rfl <;> simp
    simp only [readAnswer, kind, shape, readRows_map reads]
    rfl

theorem Relation.SoundFor.conditionalDelete (hb : b.template = s.template .conditionalDelete) :
    r.Runs s b now c .conditionalDelete := by
  obtain ⟨key, id, values, fits⟩ := Bound.conditionalDelete_values hb
  have bound : parameters b now =
      (key ++ [Value.text id]).map Cell.ofValue ++ [.integer (reading now)] := by
    rw [parameters, hb, values]
    rfl
  let taken (e : List Value × Version) : Bool :=
    decide (e.1 = key) && (e.2.liveAt now && decide (e.2.id = id))
  have left : ∀ row ∈ r.rows, ∀ e ∈ entries, row.cells = rowCells e.1 e.2 →
      (!(⟨columnNames s.conditionSpecs, true⟩ : Guard).admits r.definition
        (parameters b now) row) = !taken e := by
    intro row _ e member cells
    rw [bound, sound.condition_admits member cells fits id]
  let rows := r.rows.filter fun row => !(⟨columnNames s.conditionSpecs, true⟩ : Guard).admits
    r.definition (parameters b now) row
  -- What is deleted is the entry of the key, if the contents hold it under the id.
  let took := (c s.settings.table key).any fun v => v.id = id
  have deleted : 0 < r.rows.length - rows.length ↔ took = true := by
    have whole := congrArg List.length sound.rows
    have part := congrArg List.length (map_filter_of sound.rows left)
    rw [List.length_map, List.length_map] at whole part
    rw [whole, show rows.length = _ from part]
    refine (length_filter_key sound.keys key fun v => v.liveAt now && v.id = id).trans ?_
    simp only [took, agrees, liveVersions, Option.any_filter]
  refine ⟨⟨[], r.rows.length - rows.length⟩, { r with rows }, _, .flag took, rfl, ?_,
    sound.keep left, key, id, values, rfl, ?_⟩
  · have kind : b.template.kind = .conditionalDelete := by rw [hb, s.template_kind]
    simp only [readAnswer, kind]
    congr 2
    rw [Bool.eq_iff_iff, decide_eq_true_iff]
    exact deleted
  · refine Contents.withTable_eq_dropIf fun k => ?_
    rw [agrees, agrees]
    exact liveVersions_filter sound.keys now key k fun v => v.id = id

/-- The SQL of each of the five statements does what the statement means. -/
theorem Relation.SoundFor.execute {kind : StatementKind} (hb : b.template = s.template kind)
    (inTime : InTime s now) : r.Runs s b now c kind := by
  cases kind with
  | insert => exact sound.insert agrees hb inTime
  | selectByKey => exact sound.selectByKey agrees hb
  | deleteByKey => exact sound.deleteByKey agrees hb
  | selectKeyAndId => exact sound.selectKeyAndId agrees hb
  | conditionalDelete => exact sound.conditionalDelete agrees hb

end Tables

end Sqlite

end GroupStore
