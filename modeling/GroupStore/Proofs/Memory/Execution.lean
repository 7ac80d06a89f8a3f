import GroupStore.Proofs.Memory

/-!
# Executing the statements of a schema on a table of a memory store

Each of the five statements is run on its table and compared with what it means for the contents.
The table keeps the shape that makes the comparison possible, so runs of statements can be
followed one step at a time.

* `Memory.Table.Runs` — what a statement on a table achieves;
* `Memory.Table.SoundFor.execute` — each of the five statements achieves it.
-/

namespace GroupStore.Memory

open Std

/-! ### Bound values and projected columns -/

theorem boundValues_of {b : Bound} {specs : List ColumnSpec} (values : List Value)
    (lengthEq : specs.length = values.length)
    (found : ∀ p ∈ specs.zip values, b.value? p.1.name = some p.2) :
    boundValues b specs = .ok ((specs.map ColumnSpec.name).zip values) := by
  induction specs generalizing values with
  | nil => rfl
  | cons spec rest ih =>
    cases values with
    | nil => simp at lengthEq
    | cons value others =>
      have first : b.value? spec.name = some value := found (spec, value) List.mem_cons_self
      have later := ih others (by simpa using lengthEq)
        (fun p member => found p (List.mem_cons_of_mem _ member))
      simp only [boundValues, boundValue, first, later, bind, Except.bind, pure, Except.pure,
        List.map_cons, List.zip_cons_cons]

theorem filterMap_lookup {names : List Identifier} (values : List Value)
    {lookup : Identifier → Option Value} (lengthEq : names.length = values.length)
    (found : ∀ p ∈ names.zip values, lookup p.1 = some p.2) :
    (names.filterMap fun c => (lookup c).map fun v => (c.text, v)) =
      (names.map Identifier.text).zip values := by
  induction names generalizing values with
  | nil => rfl
  | cons name rest ih =>
    cases values with
    | nil => simp at lengthEq
    | cons value others =>
      have first : lookup name = some value := found (name, value) List.mem_cons_self
      rw [List.filterMap_cons_some (by simp [first]; rfl),
        ih others (by simpa using lengthEq)
          (fun p member => found p (List.mem_cons_of_mem _ member))]
      rfl

section Rows

variable (s : Schema)

theorem cell?_of_mem {key : List Value} (fits : s.FitsKey key) (v : Version) {column : Identifier}
    {value : Value}
    (found : (column, value) ∈ s.columns.zip (key ++ [.text v.id, .blob v.payload])) :
    cell? s.layout key (s.entry v) column = some value := by
  have lengthEq : s.primaryKey.length = key.length := by
    rw [fits.length, ← s.layout_keyNames, Layout.keyNames, List.length_map]
  have whole : s.columns.zip (key ++ [.text v.id, .blob v.payload]) =
      s.primaryKey.zip key ++ (s.entry v).values := by
    rw [Schema.columns, List.zip_append lengthEq]
    rfl
  have distinct : ((s.primaryKey.zip key ++ (s.entry v).values).map Prod.fst).Nodup := by
    rw [← whole, List.map_fst_zip (by simp [Schema.columns, lengthEq])]
    exact s.columns_nodup
  rw [cell?, s.layout_keyNames]
  rw [whole] at found
  rw [List.map_append, List.nodup_append] at distinct
  rcases List.mem_append.mp found with inKey | inEntry
  · rw [Sorted.get?_of_mem distinct.1 inKey]
    rfl
  · have absent : Sorted.get? column (s.primaryKey.zip key) = none := by
      rw [Sorted.get?_eq_none_iff]
      intro other member
      exact distinct.2.2 column (List.mem_map_of_mem member) column
        (List.mem_map_of_mem inEntry) rfl
    rw [absent, Sorted.get?_of_mem distinct.2.1 inEntry]
    rfl

theorem project_columns {key : List Value} (fits : s.FitsKey key) (v : Version) :
    project s.layout s.columns (key, s.entry v) = s.fullRow key v := by
  have lengthEq : s.primaryKey.length = key.length := by
    rw [fits.length, ← s.layout_keyNames, Layout.keyNames, List.length_map]
  unfold project Schema.fullRow
  rw [filterMap_lookup (key ++ [.text v.id, .blob v.payload])
    (by simp [Schema.columns, lengthEq])]
  intro p member
  exact cell?_of_mem s fits v member

theorem project_identity {fixed : List Value} (fits : s.FitsPrefix fixed)
    (entry : String × Version) :
    project s.layout [s.keyColumn, s.exchangeIdColumn] (groupRow s fixed entry) =
      s.idRow entry.1 entry.2.id := by
  have lengthEq : s.prefixColumns.length = fixed.length := by
    rw [fits.length, ← s.prefixSpecs_names, List.length_map]
  have whole : s.columns.zip
      (fixed ++ [.text entry.1] ++ [.text entry.2.id, .blob entry.2.payload]) =
      s.prefixColumns.zip fixed ++ [(s.keyColumn, .text entry.1),
        (s.exchangeIdColumn, .text entry.2.id), (s.payloadColumn, .blob entry.2.payload)] := by
    rw [Schema.columns, Schema.primaryKey, List.append_assoc, List.append_assoc,
      List.zip_append lengthEq]
    rfl
  unfold project Schema.idRow
  rw [filterMap_lookup [.text entry.1, .text entry.2.id] rfl]
  · rfl
  · intro p member
    refine cell?_of_mem s (fits.fitsKey entry.1) entry.2 ?_
    rw [whole]
    simp only [List.zip_cons_cons, List.zip_nil_left, List.mem_cons, List.not_mem_nil,
      or_false] at member
    rcases member with rfl | rfl <;> simp

end Rows

/-! ### Statements on a table -/

section Tables

variable {t : Table} {s : Schema} {b : Bound} {now : Nat} {c : Contents}

/-- What a statement on a table achieves: it answers, the table stays sound, and the contents
change as the statement means. -/
def Table.Runs (t : Table) (s : Schema) (b : Bound) (now : Nat) (c : Contents)
    (kind : StatementKind) : Prop :=
  ∃ answer t', t.execute b now = .ok (answer, t') ∧ t'.SoundFor s ∧
    s.Means True now c kind b.values answer (c.withTable s.settings.table (t'.version? now))

/-- An insert puts the row of the bound version under the bound key. -/
theorem Table.SoundFor.insert_rows (sound : t.SoundFor s) (hb : b.template = s.template .insert)
    {key : List Value} {exchangeId : String} {payload : ByteArray}
    (values : b.values = key ++ [.text exchangeId, .blob payload]) (fits : s.FitsKey key) :
    let v : Version := ⟨exchangeId, payload, Version.expiry s.settings.ttlSeconds now⟩
    t.execute b now = .ok (.empty, { t with rows := Sorted.put key (s.entry v) t.rows }) := by
  intro v
  have lookup : ∀ p ∈ s.layout.columns.zip b.values, b.value? p.1.name = some p.2 := by
    intro p member
    refine Bound.value?_of_mem hb ?_
    rw [s.parameterColumns_eq, Schema.parameterSpecs, List.zip_map_left]
    exact List.mem_map_of_mem (f := Prod.map ColumnSpec.name id) member
  rw [values, Layout.columns, List.zip_append fits.length.symm] at lookup
  have keys : boundValues b s.layout.primaryKey =
      .ok ((s.layout.primaryKey.map ColumnSpec.name).zip key) :=
    boundValues_of key fits.length.symm fun p member => lookup p (List.mem_append_left _ member)
  have regular : boundValues b s.layout.regular = .ok (s.entry v).values :=
    boundValues_of [.text exchangeId, .blob payload] rfl fun p member =>
      lookup p (List.mem_append_right _ member)
  have stored : ((s.layout.primaryKey.map ColumnSpec.name).zip key).map Prod.snd = key :=
    List.map_snd_zip (Nat.le_of_eq (by rw [List.length_map, fits.length]))
  have moment : expiry b.template.ttlSeconds now = v.expiresAt := by
    rw [hb]
    simp [expiry, Schema.template, v, Version.expiry, Nat.mul_comm]
  have kind : b.template.kind = .insert := by rw [hb, s.template_kind]
  simp only [Table.execute, kind, Table.insert, sound.layout, keys, regular, bind, Except.bind,
    pure, Except.pure, stored, moment]
  rfl

theorem Table.SoundFor.insert (sound : t.SoundFor s) (hb : b.template = s.template .insert)
    (agrees : ∀ key, c s.settings.table key = t.version? now key) :
    t.Runs s b now c .insert := by
  obtain ⟨key, exchangeId, payload, values, fits⟩ := Bound.insert_values hb
  let v : Version := ⟨exchangeId, payload, Version.expiry s.settings.ttlSeconds now⟩
  refine ⟨.empty, { t with rows := Sorted.put key (s.entry v) t.rows },
    sound.insert_rows hb values fits, sound.put fits v, key, exchangeId, payload, values, rfl, ?_⟩
  refine Contents.withTable_eq_set fun k => ?_
  rw [sound.version?_put fits v, agrees]

theorem Table.SoundFor.selectByKey (sound : t.SoundFor s)
    (hb : b.template = s.template .selectByKey)
    (agrees : ∀ key, c s.settings.table key = t.version? now key) :
    t.Runs s b now c .selectByKey := by
  have kind : b.template.kind = .selectByKey := by rw [hb, s.template_kind]
  have projection : b.template.projection = s.columns := by rw [hb]; rfl
  have fits := Bound.selectByKey_values hb
  simp only [Table.Runs, Table.execute, kind, Table.selectByKey]
  cases found : Sorted.get? b.values t.rows with
  | none =>
    have absent : c s.settings.table b.values = none := by rw [agrees, Table.version?, found]; rfl
    refine ⟨.empty, t, rfl, sound, ?_, Contents.withTable_eq_self fun key => (agrees key).symm⟩
    rw [absent]
    rfl
  | some e =>
    obtain ⟨-, v, rfl⟩ := sound.get? found
    cases live : v.liveAt now with
    | false =>
      have absent : c s.settings.table b.values = none := by
        rw [agrees, Table.version?, found, Option.bind_some, expiredAt_entry, live]
        rfl
      simp only [expiredAt_entry, live, Bool.not_false, if_true]
      refine ⟨.empty, _, rfl, sound.keep _, ?_, Contents.withTable_eq_self fun key => ?_⟩
      · rw [absent]
        rfl
      · rw [agrees]
        refine (sound.version?_drop b.values key).trans ?_
        by_cases keyIs : key = b.values
        · rw [if_pos keyIs, keyIs, ← agrees, absent]
        · rw [if_neg keyIs]
    | true =>
      have present : c s.settings.table b.values = some v := by
        rw [agrees, sound.version?_eq_some_iff]
        exact ⟨found, live⟩
      simp only [expiredAt_entry, live, Bool.not_true, Bool.false_eq_true, if_false]
      refine ⟨_, t, rfl, sound, ?_, Contents.withTable_eq_self fun key => (agrees key).symm⟩
      rw [present, sound.layout, projection, project_columns s fits v]
      rfl

theorem Table.SoundFor.deleteByKey (sound : t.SoundFor s)
    (hb : b.template = s.template .deleteByKey)
    (agrees : ∀ key, c s.settings.table key = t.version? now key) :
    t.Runs s b now c .deleteByKey := by
  have kind : b.template.kind = .deleteByKey := by rw [hb, s.template_kind]
  simp only [Table.Runs, Table.execute, kind, Table.deleteByKey]
  refine ⟨_, _, rfl, sound.keep _, rfl, Contents.withTable_eq_set fun k => ?_⟩
  rw [agrees]
  exact sound.version?_drop b.values k

/-- A scan answers with what is under the bound prefix, in ascending order of the groups. -/
theorem Table.SoundFor.selectKeyAndId (sound : t.SoundFor s)
    (hb : b.template = s.template .selectKeyAndId)
    (agrees : ∀ key, c s.settings.table key = t.version? now key) :
    ∃ found t', Sorted.Ascending found ∧ c.Lists s.settings.table b.values found ∧
      t.execute b now = .ok (⟨found.map fun entry => s.idRow entry.1 entry.2.id⟩, t') ∧
      t'.SoundFor s ∧ c.withTable s.settings.table (t'.version? now) = c := by
  have kind : b.template.kind = .selectKeyAndId := by rw [hb, s.template_kind]
  have projection : b.template.projection = [s.keyColumn, s.exchangeIdColumn] := by rw [hb]; rfl
  have fits := Bound.selectKeyAndId_values hb
  obtain ⟨found, ordered, listed, rows⟩ := sound.scanned now fits
  refine ⟨found, { t with rows := t.rows.filter fun row => !row.2.expiredAt now }, ordered,
    ⟨ordered.nodup, fun group v => ?_⟩, ?_, sound.keep _, Contents.withTable_eq_self fun key => ?_⟩
  · rw [listed, agrees]
  · simp only [Table.execute, kind, Table.selectKeyAndId, rows, List.map_map, sound.layout,
      projection]
    congr 4
    funext entry
    exact project_identity s fits entry
  · rw [agrees]
    exact sound.version?_purge key

/-- The condition of a conditional delete is on the id that is bound after the key. -/
theorem Bound.boundValue_exchangeId (hb : b.template = s.template .conditionalDelete)
    {key : List Value} {id : String} (values : b.values = key ++ [.text id])
    (fits : s.FitsKey key) :
    boundValue b s.exchangeIdColumn = .ok (.text id) := by
  have lengthEq : s.primaryKey.length = key.length := by
    rw [fits.length, ← s.layout_keyNames, Layout.keyNames, List.length_map]
  have parameters : (s.template .conditionalDelete).parameterColumns =
      s.primaryKey ++ [s.exchangeIdColumn] := rfl
  have found : b.value? s.exchangeIdColumn = some (.text id) := by
    refine Bound.value?_of_mem hb ?_
    rw [parameters, values, List.zip_append lengthEq]
    simp
  simp only [boundValue, found]

theorem Table.SoundFor.conditionalDelete (sound : t.SoundFor s)
    (hb : b.template = s.template .conditionalDelete)
    (agrees : ∀ key, c s.settings.table key = t.version? now key) :
    t.Runs s b now c .conditionalDelete := by
  have kind : b.template.kind = .conditionalDelete := by rw [hb, s.template_kind]
  have condition : b.template.condition = some s.exchangeIdColumn := by rw [hb]; rfl
  obtain ⟨key, id, values, fits⟩ := Bound.conditionalDelete_values hb
  have expected := Bound.boundValue_exchangeId hb values fits
  have boundKey : t.boundKey b = key := by
    rw [Table.boundKey, sound.layout, ← fits.length, values, if_pos (by simp), List.take_left]
  simp only [Table.Runs, Table.execute, kind, Table.conditionalDelete, condition, expected,
    boundKey,
    bind, Except.bind, pure, Except.pure]
  -- The row counts iff it is there, lives and has the bound id: then the contents say so too.
  have held : c s.settings.table key = t.version? now key := agrees key
  have stays : ∀ took, (c s.settings.table key).any (·.id = id) = took →
      ∀ t' : Table,
      (∀ k, t'.version? now k = if took then (if k = key then none else t.version? now k)
        else t.version? now k) →
      s.Means True now c .conditionalDelete b.values (.flag took)
        (c.withTable s.settings.table (t'.version? now)) := by
    intro took answers t' left
    refine ⟨key, id, values, by rw [answers], ?_⟩
    cases took with
    | false =>
      rw [answers]
      exact Contents.withTable_eq_self fun k => by rw [left, agrees]; rfl
    | true =>
      rw [answers]
      exact Contents.withTable_eq_set fun k => by rw [left, agrees]; rfl
  cases found : Sorted.get? key t.rows with
  | none =>
    have absent : c s.settings.table key = none := by rw [held, Table.version?, found]; rfl
    exact ⟨_, _, rfl, sound, stays false (by rw [absent]; rfl) t fun _ => rfl⟩
  | some e =>
    obtain ⟨-, v, rfl⟩ := sound.get? found
    simp only [expiredAt_entry, Bool.not_not, get?_exchangeId_entry, Option.some.injEq,
      Value.text.injEq]
    cases live : v.liveAt now with
    | false =>
      have absent : c s.settings.table key = none := by
        rw [held, Table.version?, found, Option.bind_some, expiredAt_entry, live]
        rfl
      simp only [Bool.false_and, Bool.false_eq_true, if_false]
      exact ⟨_, _, rfl, sound, stays false (by rw [absent]; rfl) t fun _ => rfl⟩
    | true =>
      have present : c s.settings.table key = some v := by
        rw [held, sound.version?_eq_some_iff]
        exact ⟨found, live⟩
      by_cases idEq : v.id = id
      · simp only [idEq, Bool.true_and, decide_true, if_true]
        refine ⟨_, _, rfl, sound.keep _, stays true ?_ _ fun k => ?_⟩
        · simp [present, idEq]
        · exact sound.version?_drop key k
      · simp only [idEq, Bool.true_and, decide_false, Bool.false_eq_true, if_false]
        refine ⟨_, _, rfl, sound, stays false ?_ t fun _ => rfl⟩
        simp [present, idEq]

/-- Each of the five statements does to its table what it means. -/
theorem Table.SoundFor.execute (sound : t.SoundFor s) {kind : StatementKind}
    (hb : b.template = s.template kind)
    (agrees : ∀ key, c s.settings.table key = t.version? now key) : t.Runs s b now c kind := by
  cases kind with
  | insert => exact sound.insert hb agrees
  | selectByKey => exact sound.selectByKey hb agrees
  | deleteByKey => exact sound.deleteByKey hb agrees
  | selectKeyAndId =>
    obtain ⟨found, t', ordered, lists, run, sound', contentsEq⟩ := sound.selectKeyAndId hb agrees
    exact ⟨_, t', run, sound', found, lists, fun _ => ordered, rfl, contentsEq⟩
  | conditionalDelete => exact sound.conditionalDelete hb agrees

end Tables

end GroupStore.Memory
