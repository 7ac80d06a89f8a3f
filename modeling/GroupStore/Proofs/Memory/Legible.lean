import GroupStore.Proofs.Confirmation
import GroupStore.Proofs.Memory.Rows

/-!
# The scan and the deletes of a confirmation, on any rows

On a memory table that anyone may have written to, a row under the prefix of a repository need not
name a group, and its exchange id need not be text.  Such a row makes the scan fail while it lives.
The other rows are what the deletes are for, and a delete takes at most the row of its own group.

* `Schema.Carries`, `Schema.Legible` — rows that have an id, and rows that a scan can read;
* `Schema.dropping`, `Schema.cleared` — what is left after deletes for some groups, and for all;
* `Memory.Store.execute_scan` — a scan on any rows;
* `Memory.Store.execute_drop` — a conditional delete on any rows.
-/

namespace GroupStore

open Memory

/-! ### Live rows -/

/-- The live rows by table and key. -/
abbrev Memory.Rowset := TableName → List Value → Option Entry

namespace Schema

variable (s : Schema)

/-- A row has an id in its exchange id column. -/
def Carries (id : String) (row : Entry) : Prop :=
  Sorted.get? s.exchangeIdColumn row.values = some (.text id)

instance (id : String) : DecidablePred (s.Carries id) := fun row =>
  inferInstanceAs (Decidable (Sorted.get? s.exchangeIdColumn row.values = some (.text id)))

/-- Every row under the own prefix is the row of a group and has an id. -/
def Legible (rows : Rowset) : Prop :=
  ∀ key row, rows s.settings.table key = some row → s.prefixValues.isPrefixOf key = true →
    (∃ group, key = s.composeKey group) ∧ ∃ id, s.Carries id row

/-- What is left of rows without those of some groups, as far as they have an id. -/
def dropping (rows : Rowset) (id : String) (groups : List String) : Rowset := fun table key =>
  if table = s.settings.table ∧ key ∈ groups.map s.composeKey ∧
      (rows table key).any (s.Carries id ·) then none
  else rows table key

/-- What is left of rows without all those of groups that have an id. -/
def cleared (rows : Rowset) (id : String) : Rowset := fun table key =>
  if table = s.settings.table ∧ (s.decomposeKey key).isSome ∧
      (rows table key).any (s.Carries id ·) then none
  else rows table key

variable {s} {rows : Rowset} {id : String}

@[simp]
theorem dropping_nil : s.dropping rows id [] = rows := by
  funext table key
  simp [dropping]

/-- Groups may be dropped one after the other. -/
theorem dropping_cons (key : String) (rest : List String) :
    s.dropping (s.dropping rows id [key]) id rest = s.dropping rows id (key :: rest) := by
  funext t k
  by_cases first : t = s.settings.table ∧ k ∈ [key].map s.composeKey ∧
      (rows t k).any (s.Carries id ·)
  · have both : t = s.settings.table ∧ k ∈ (key :: rest).map s.composeKey ∧
        (rows t k).any (s.Carries id ·) :=
      ⟨first.1, List.mem_cons.mpr (.inl (List.mem_singleton.mp first.2.1)), first.2.2⟩
    have gone : s.dropping rows id [key] t k = none := if_pos first
    rw [dropping, gone, ite_self, dropping, if_pos both]
  · have kept : s.dropping rows id [key] t k = rows t k := if_neg first
    have alike : (t = s.settings.table ∧ k ∈ rest.map s.composeKey ∧
          (rows t k).any (s.Carries id ·)) ↔
        t = s.settings.table ∧ k ∈ (key :: rest).map s.composeKey ∧
          (rows t k).any (s.Carries id ·) := by
      refine and_congr_right fun table => and_congr_left fun carries => ?_
      rw [List.map_cons, List.mem_cons]
      refine ⟨.inr, fun member => member.resolve_left fun own => first ⟨table, ?_, carries⟩⟩
      exact List.mem_singleton.mpr own
    rw [dropping, kept, dropping]
    simp only [alike]

variable (s rows id) in
/-- What is dropped is the own, and has the id. -/
theorem dropping_cases (groups : List String) (t : TableName) (k : List Value) :
    s.dropping rows id groups t k = rows t k ∨ (s.dropping rows id groups t k = none ∧
      t = s.settings.table ∧ (∃ group, k = s.composeKey group) ∧
      ∃ row, rows t k = some row ∧ s.Carries id row) := by
  by_cases taken : t = s.settings.table ∧ k ∈ groups.map s.composeKey ∧
      (rows t k).any (s.Carries id ·)
  · have ⟨table, member, carries⟩ := taken
    obtain ⟨group, -, rfl⟩ := List.mem_map.mp member
    obtain ⟨row, held, own⟩ := (Option.any_eq_true _ _).mp carries
    exact .inr ⟨if_pos taken, table, ⟨group, rfl⟩, row, held, by simpa using own⟩
  · exact .inl (if_neg taken)

/-- Dropping every group that has the id clears the rows of it. -/
theorem dropping_eq_cleared {groups : List String}
    (all : ∀ group row, rows s.settings.table (s.composeKey group) = some row →
      s.Carries id row → group ∈ groups) : s.dropping rows id groups = s.cleared rows id := by
  funext t k
  unfold dropping cleared
  congr 1
  rw [eq_iff_iff]
  refine and_congr_right fun table => and_congr_left fun carries => ?_
  constructor
  · intro member
    obtain ⟨group, -, rfl⟩ := List.mem_map.mp member
    rw [s.decomposeKey_eq_some_iff.mpr rfl]
    rfl
  · intro decomposes
    obtain ⟨group, decomposed⟩ := Option.isSome_iff_exists.mp decomposes
    obtain rfl := s.decomposeKey_eq_some_iff.mp decomposed
    obtain ⟨row, held, own⟩ := (Option.any_eq_true _ _).mp carries
    exact List.mem_map_of_mem (all group row (table ▸ held) (by simpa using own))

/-- Clearing does not depend on what was dropped before. -/
theorem cleared_dropping (groups : List String) :
    s.cleared (s.dropping rows id groups) id = s.cleared rows id := by
  funext t k
  rcases s.dropping_cases rows id groups t k with
    kept | ⟨gone, table, ⟨group, rfl⟩, row, held, own⟩
  · unfold cleared
    rw [kept]
  · have decomposes : (s.decomposeKey (s.composeKey group)).isSome := by
      rw [s.decomposeKey_eq_some_iff.mpr rfl]
      rfl
    unfold cleared
    rw [gone, held]
    simp [table, decomposes, own]

/-- What is dropped could be read. -/
theorem legible_dropping (groups : List String) :
    s.Legible (s.dropping rows id groups) ↔ s.Legible rows := by
  constructor
  · intro legible key row held own
    rcases s.dropping_cases rows id groups s.settings.table key with
      kept | ⟨-, -, group, row', held', carries⟩
    · exact legible key row (kept.trans held) own
    · rw [held] at held'
      cases held'
      exact ⟨group, id, carries⟩
  · intro legible key row held own
    rcases s.dropping_cases rows id groups s.settings.table key with
      kept | ⟨gone, -⟩
    · exact legible key row (kept.symm.trans held) own
    · rw [gone] at held
      cases held

/-- What is legible stays so while nothing is written. -/
theorem Legible.later {st : Store} {now later : Nat} (legible : s.Legible (st.live now))
    (order : now ≤ later) : s.Legible (st.live later) := fun key row held own =>
  legible key row (Store.live_earlier order held) own

/-! ### Scanned rows -/

/-- An own row of an answer is read with its group and its id. -/
theorem identity_mem {answer : List Row} {identities : List Identity}
    (read : Running.readIdentities s answer = .ok identities) {row : Row} (member : row ∈ answer)
    (own : s.Owns row) {identity : Identity} (named : s.Names row identity) :
    identity ∈ identities := by
  have owned : row ∈ answer.filter fun row => s.Owns row :=
    List.mem_filter.mpr ⟨member, decide_eq_true own⟩
  have names := s.readIdentities_names read
  clear read
  generalize answer.filter (fun row => s.Owns row) = rows at owned names
  induction names with
  | nil => cases owned
  | @cons row' identity' _ _ first _ ih =>
    rcases List.mem_cons.mp owned with rfl | later
    · have identityEq : identity = identity' := by
        obtain ⟨group, id⟩ := identity
        have groups := Except.ok.inj (named.1.symm.trans first.1)
        have ids := Except.ok.inj (named.2.symm.trans first.2)
        simp only at groups ids
        rw [groups, ids]
      exact identityEq ▸ List.mem_cons_self
    · exact List.mem_cons_of_mem _ (ih later)

/-- A key of full length under the own prefix ends in one value. -/
theorem exists_last {key : List Value} (length : key.length = s.layout.primaryKey.length)
    (own : s.prefixValues.isPrefixOf key = true) : ∃ v, key = s.prefixValues ++ [v] := by
  obtain ⟨rest, rfl⟩ := List.isPrefixOf_iff_prefix.mp own
  have fits := s.prefixValues_fits.length
  rw [s.layout_primaryKey, List.length_append, List.length_append, fits] at length
  obtain ⟨v, rfl⟩ := List.length_eq_one_iff.mp (Nat.add_left_cancel length)
  exact ⟨v, rfl⟩

/-- The row of a scan for a stored row under the own prefix. -/
def scannedRow (s : Schema) (row : List Value × Entry) : Row :=
  project s.layout [s.keyColumn, s.exchangeIdColumn] row

/-- What a scan returns of a row under the own prefix: the end of its key and its id. -/
theorem scannedRow_get? (v : Value) (row : Entry) (column : String) :
    (s.scannedRow (s.prefixValues ++ [v], row)).get? column =
      Sorted.get? column ((s.keyColumn.text, v) ::
        ((Sorted.get? s.exchangeIdColumn row.values).map
          fun x => (s.exchangeIdColumn.text, x)).toList) := by
  have distinct := s.columns_nodup
  simp only [columns, primaryKey, List.append_assoc, List.nodup_append, List.nodup_cons,
    List.cons_append, List.nil_append, List.mem_cons] at distinct
  obtain ⟨-, ⟨apart, -⟩, others⟩ := distinct
  have lengthEq : s.prefixColumns.length = s.prefixValues.length := by
    rw [s.prefixValues_fits.length, ← s.prefixSpecs_names, List.length_map]
  have absent {name : Identifier} (other : name ∉ s.prefixColumns) :
      Sorted.get? name (s.prefixColumns.zip s.prefixValues) = none :=
    Sorted.get?_eq_none_iff.mpr fun x member => other (List.of_mem_zip member).1
  have group : cell? s.layout (s.prefixValues ++ [v]) row s.keyColumn = some v := by
    rw [cell?, s.layout_keyNames, primaryKey, List.zip_append lengthEq, Sorted.get?_append,
      absent fun member => others _ member _ (.inl rfl) rfl]
    simp [Sorted.get?_cons]
  have carried : cell? s.layout (s.prefixValues ++ [v]) row s.exchangeIdColumn =
      Sorted.get? s.exchangeIdColumn row.values := by
    rw [cell?, s.layout_keyNames, primaryKey, List.zip_append lengthEq, Sorted.get?_append,
      absent fun member => others _ member _ (.inr (.inl rfl)) rfl]
    have differ : s.exchangeIdColumn ≠ s.keyColumn := fun columnEq => apart (.inl columnEq.symm)
    simp [Sorted.get?_cons, differ]
  have differ := s.own_texts_differ.1
  rw [scannedRow, project, List.filterMap_cons, group, List.filterMap_cons, carried]
  refine (Sorted.get?_ofPairs ?_ column).trans ?_
  · cases Sorted.get? s.exchangeIdColumn row.values <;> simp [differ]
  · cases Sorted.get? s.exchangeIdColumn row.values <;> rfl

/-- A scanned row claims no prefix but the own one. -/
theorem owns_scannedRow (v : Value) (row : Entry) :
    s.Owns (s.scannedRow (s.prefixValues ++ [v], row)) := by
  intro entry member x found
  obtain ⟨group, carried⟩ := s.own_texts_differ.2 entry.column (List.mem_map_of_mem member)
  rw [Option.mem_def, scannedRow_get?, Sorted.get?_cons, if_neg group] at found
  cases held : Sorted.get? s.exchangeIdColumn row.values <;>
    simp [held, Sorted.get?_cons, carried] at found

theorem scannedRow_key (v : Value) (row : Entry) :
    (s.scannedRow (s.prefixValues ++ [v], row)).get? s.keyColumn.text = some v := by
  rw [scannedRow_get?, Sorted.get?_cons, if_pos rfl]

theorem scannedRow_id (v : Value) (row : Entry) :
    (s.scannedRow (s.prefixValues ++ [v], row)).get? s.exchangeIdColumn.text =
      Sorted.get? s.exchangeIdColumn row.values := by
  rw [scannedRow_get?, Sorted.get?_cons, if_neg s.own_texts_differ.1.symm]
  cases Sorted.get? s.exchangeIdColumn row.values <;> simp [Sorted.get?_cons]

end Schema

namespace Memory

/-! ### On a table -/

section Tables

variable {t : Table} {s : Schema} {b : Bound} {now : Nat}

/-- The live rows under the prefix of a schema. -/
def Table.under (t : Table) (s : Schema) (now : Nat) : Rows :=
  (t.rows.filter fun row => !row.2.expiredAt now).filter fun row => s.prefixValues.isPrefixOf row.1

theorem Table.Shaped.mem_under (shaped : t.Shaped) {key : List Value} {row : Entry} :
    (key, row) ∈ t.under s now ↔
      t.live now key = some row ∧ s.prefixValues.isPrefixOf key = true := by
  rw [Table.under, List.mem_filter, List.mem_filter, Table.live, Option.filter_eq_some_iff,
    Sorted.get?_eq_some_iff shaped.ordered.nodup]

theorem Table.Shaped.last_of_mem_under (shaped : t.Shaped) (layout : t.layout = s.layout)
    {key : List Value} {row : Entry} (inside : (key, row) ∈ t.under s now) :
    ∃ v, key = s.prefixValues ++ [v] := by
  have both := List.mem_filter.mp inside
  refine Schema.exists_last ?_ both.2
  rw [shaped.keys _ (List.mem_filter.mp both.1).1, layout]

/-- A scan answers with the live rows under its prefix. -/
theorem Table.execute_scan (now : Nat) (layout : t.layout = s.layout)
    (hb : b.template = s.template .selectKeyAndId) (values : b.values = s.prefixValues) :
    t.execute b now = .ok (⟨(t.under s now).map s.scannedRow⟩,
      { t with rows := t.rows.filter fun row => !row.2.expiredAt now }) := by
  have kind : b.template.kind = .selectKeyAndId := by rw [hb, s.template_kind]
  have projection : b.template.projection = [s.keyColumn, s.exchangeIdColumn] := by
    rw [hb]
    rfl
  simp only [Table.execute, kind, Table.selectKeyAndId, values, layout, projection]
  rfl

/-- The answer of a scan can be read iff the rows under the prefix are those of groups and have
ids. -/
theorem Table.Shaped.readable_under (shaped : t.Shaped) (layout : t.layout = s.layout) :
    s.Readable ⟨(t.under s now).map s.scannedRow⟩ ↔
      ∀ key row, (key, row) ∈ t.under s now →
        (∃ group, key = s.composeKey group) ∧ ∃ id, s.Carries id row := by
  show (∀ r ∈ (t.under s now).map s.scannedRow, _) ↔ _
  rw [List.forall_mem_map]
  constructor
  · intro readable key row inside
    obtain ⟨v, rfl⟩ := shaped.last_of_mem_under layout inside
    obtain ⟨⟨group, named⟩, carried⟩ := readable _ inside
    obtain ⟨id, has⟩ := carried (Schema.owns_scannedRow v row)
    rw [Schema.scannedRow_key, Option.some.injEq] at named
    rw [Schema.scannedRow_id] at has
    exact ⟨⟨group, by rw [named]; rfl⟩, id, has⟩
  · rintro legible ⟨key, row⟩ inside
    obtain ⟨⟨group, rfl⟩, id, carries⟩ := legible key row inside
    have named := Schema.scannedRow_key (s := s) (.text group) row
    have has := (Schema.scannedRow_id (s := s) (.text group) row).trans carries
    exact ⟨⟨group, named⟩, fun _ => ⟨id, has⟩⟩

/-- A conditional delete takes the row of its key if it lives and has the id. -/
theorem Table.Shaped.execute_drop (shaped : t.Shaped) (layout : t.layout = s.layout)
    (hb : b.template = s.template .conditionalDelete) {group id : String}
    (values : b.values = s.composeKey group ++ [.text id]) :
    ∃ took t', t.execute b now = .ok (.flag took, t') ∧ t'.layout = t.layout ∧
      ∀ later, now ≤ later → ∀ key, t'.live later key =
        if key = s.composeKey group ∧ (t.live later key).any (s.Carries id ·) then none
        else t.live later key := by
  have kind : b.template.kind = .conditionalDelete := by rw [hb, s.template_kind]
  have condition : b.template.condition = some s.exchangeIdColumn := by
    rw [hb]
    rfl
  have fits := s.composeKey_fits group
  have expected := Bound.boundValue_exchangeId hb values fits
  have boundKey : t.boundKey b = s.composeKey group := by
    rw [Table.boundKey, layout, ← fits.length, values, if_pos (by simp), List.take_left]
  simp only [Table.execute, kind, Table.conditionalDelete, condition, expected, boundKey, bind,
    Except.bind, pure, Except.pure]
  cases stored : Sorted.get? (s.composeKey group) t.rows with
  | none =>
    refine ⟨false, t, rfl, rfl, fun later _ key => (if_neg ?_).symm⟩
    rintro ⟨rfl, carries⟩
    simp [Table.live, stored] at carries
  | some row =>
    by_cases takes : row.expiredAt now = false ∧ s.Carries id row
    · have carries : Sorted.get? s.exchangeIdColumn row.values = some (.text id) := takes.2
      simp only [takes.1, carries, Bool.not_false, decide_true, Bool.and_self, if_true]
      refine ⟨true, _, rfl, rfl, fun later _ key => ?_⟩
      rw [shaped.live_drop]
      by_cases keyEq : key = s.composeKey group
      · rw [if_pos keyEq, keyEq, Table.live, stored, Option.filter_some]
        cases row.expiredAt later <;> simp [takes.2]
      · rw [if_neg keyEq, if_neg fun both => keyEq both.1]
    · have refused : ¬(!row.expiredAt now &&
          decide (Sorted.get? s.exchangeIdColumn row.values = some (.text id))) = true := by
        simpa [Schema.Carries] using takes
      simp only [if_neg refused]
      refine ⟨false, t, rfl, rfl, fun later order key => (if_neg ?_).symm⟩
      -- What is live later and has the id would have been taken.
      rintro ⟨rfl, carries⟩
      rw [Table.live, stored, Option.filter_some] at carries
      cases gone : row.expiredAt later with
      | true => simp [gone] at carries
      | false =>
        refine takes ⟨Entry.expiredAt_mono order gone, ?_⟩
        simpa [gone] using carries

end Tables

/-! ### On a store -/

section Stores

variable {st : Store} {s : Schema} {b : Bound} {now : Nat}

/-- The live rows of a table are those of the store. -/
theorem Store.live_of_table {t : Table} (found : st.table? s.layout.table = some t) (later : Nat)
    (key : List Value) : st.live later s.settings.table key = t.live later key := by
  have known : st.table? s.settings.table = some t := found
  rw [Store.live, known, Option.bind_some]

/-- A scan succeeds on an open store.  Its answer can be read iff the live rows are legible, and
then it names every live group with its id. -/
theorem Store.execute_scan (now : Nat) (shaped : st.Shaped) (held : st.Holds s.layout)
    (isOpen : st.closed = false) (hb : b.template = s.template .selectKeyAndId)
    (values : b.values = s.prefixValues) :
    ∃ answer, (st.execute b now).1 = .ok answer ∧
      (s.Readable answer ↔ s.Legible (st.live now)) ∧
      ∀ identities, Running.readIdentities s answer.rows = .ok identities →
        ∀ group row id, st.live now s.settings.table (s.composeKey group) = some row →
          s.Carries id row → ⟨group, id⟩ ∈ identities := by
  obtain ⟨t, found, layout⟩ := held
  have ordered := shaped _ t found
  have name : b.template.layout.table = s.layout.table := by rw [hb, s.template_layout]
  have live := Store.live_of_table found now
  have succeeds := (Store.execute_eq_ok_iff isOpen).mpr
    ⟨t, _, name ▸ found, Table.execute_scan now layout hb values, rfl⟩
  refine ⟨_, congrArg Prod.fst succeeds, ?_, fun identities read group row id stored carries => ?_⟩
  · rw [ordered.readable_under layout]
    refine forall₂_congr fun key row => ?_
    rw [ordered.mem_under, live, and_imp]
  · have inside : (s.composeKey group, row) ∈ t.under s now :=
      ordered.mem_under.mpr
        ⟨(live _).symm.trans stored, List.isPrefixOf_iff_prefix.mpr (List.prefix_append _ _)⟩
    have named := Schema.scannedRow_key (s := s) (.text group) row
    have has := (Schema.scannedRow_id (s := s) (.text group) row).trans carries
    exact Schema.identity_mem read (List.mem_map_of_mem inside)
      (Schema.owns_scannedRow (.text group) row)
      ⟨Row.text_eq_ok_iff.mpr named, Row.text_eq_ok_iff.mpr has⟩

/-- A conditional delete succeeds on an open store, and from then on its group is dropped, as far
as it has the id. -/
theorem Store.execute_drop (now : Nat) (shaped : st.Shaped) (held : st.Holds s.layout)
    (isOpen : st.closed = false) (hb : b.template = s.template .conditionalDelete)
    {group id : String} (values : b.values = s.composeKey group ++ [.text id]) :
    ∃ took, (st.execute b now).1 = .ok (.flag took) ∧
      ∀ later, now ≤ later →
        (st.execute b now).2.live later = s.dropping (st.live later) id [group] := by
  obtain ⟨t, found, layout⟩ := held
  have name : b.template.layout.table = s.layout.table := by rw [hb, s.template_layout]
  obtain ⟨took, t', executed, own, left⟩ := (shaped _ t found).execute_drop layout hb values
  have succeeds := (Store.execute_eq_ok_iff isOpen).mpr ⟨t, t', name ▸ found, executed, rfl⟩
  refine ⟨took, congrArg Prod.fst succeeds, fun later order => ?_⟩
  rw [succeeds]
  funext table key
  have tableEq : s.layout.table = s.settings.table := rfl
  rw [Store.live_executed own (name ▸ found), Schema.dropping, name, tableEq]
  by_cases hit : table = s.settings.table
  · obtain rfl := hit
    rw [if_pos rfl, left later order key, Store.live_of_table found]
    simp
  · rw [if_neg hit, if_neg fun all => hit all.1]

end Stores

end Memory

end GroupStore
