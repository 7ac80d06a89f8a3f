import GroupStore.Proofs.Memory.Acceptance

/-!
# The types of stored rows

A caller may prepare any template over a layout with distinct columns, and then bind and execute
what the session has prepared.  A bound value has the kind of its column in the layout of the
statement, and the table of a prepared statement has that layout for good.  So every row that is
stored has a value of the right kind in each column, whatever the order of the columns in the
statements, and whatever reads it finds one.

* `Layout.Types` — the values of a row have the kinds of the columns;
* `Store.Own` — demands that execute only what the session itself has prepared;
* `Store.WellTyped` — what such demands keep, `Store.WellTyped.serve` for one of them;
* `Store.rows_typed` — layouts never change, rows are typed, and projections find their values.
-/

namespace GroupStore

/-- A row has one value for each column of the primary key, in its order, and one for each other
column, all of the kinds of the columns. -/
structure Layout.Types (l : Layout) (row : List Value × Memory.Entry) : Prop where
  key : row.1.map Value.kind = l.primaryKey.map ColumnSpec.kind
  names : row.2.values.map Prod.fst = l.regular.map ColumnSpec.name
  kinds : (row.2.values.map Prod.snd).map Value.kind = l.regular.map ColumnSpec.kind

namespace Memory

open Std

/-! ### Reading typed rows -/

section Reading

variable {l : Layout} {row : List Value × Entry} {column : Identifier}

/-- A column of the layout has a value of its kind in a typed row. -/
theorem cell?_typed (distinct : l.Distinct) (typed : l.Types row) {spec : ColumnSpec}
    (found : l.column? column = some spec) :
    ∃ value, cell? l row.1 row.2 column = some value ∧ value.kind = spec.kind := by
  obtain ⟨member, rfl⟩ := Layout.of_column?_eq_some found
  let values := row.1 ++ row.2.values.map Prod.snd
  have kinds : values.map Value.kind = l.columns.map ColumnSpec.kind := by
    rw [List.map_append, typed.key, typed.kinds, ← List.map_append, Layout.columns]
  have lengthEq : l.columns.length = values.length := by
    simpa using (congrArg List.length kinds).symm
  obtain ⟨value, paired⟩ := exists_mem_zip lengthEq member
  have cells : (l.columns.map ColumnSpec.name).zip values =
      l.keyNames.zip row.1 ++ row.2.values := by
    have keys : (l.primaryKey.map ColumnSpec.name).length = row.1.length := by
      simpa using (congrArg List.length typed.key).symm
    rw [Layout.columns, List.map_append, List.zip_append keys,
      ← List.zip_of_prod typed.names rfl]
    rfl
  have held : Sorted.get? spec.name ((l.columns.map ColumnSpec.name).zip values) = some value :=
    get?_names lengthEq distinct paired
  rw [cells, Sorted.get?_append] at held
  exact ⟨value, held, kind_of_mem_zip kinds paired⟩

/-- A projected column is found in the row under its name. -/
theorem project_get? {projection : List Identifier} {value : Value} (member : column ∈ projection)
    (held : cell? l row.1 row.2 column = some value) :
    (project l projection row).get? column.text = some value := by
  let pairs := projection.filterMap fun name =>
    (cell? l row.1 row.2 name).map fun v => (name.text, v)
  have inside : (column.text, value) ∈ pairs :=
    List.mem_filterMap.mpr ⟨column, member, by rw [held]; rfl⟩
  have known : column.text ∈ (Sorted.ofPairs pairs).map Prod.fst :=
    Sorted.mem_keys_ofPairs.mpr (List.mem_map_of_mem inside)
  show Sorted.get? column.text (Sorted.ofPairs pairs) = some value
  cases found : Sorted.get? column.text (Sorted.ofPairs pairs) with
  | none =>
    obtain ⟨entry, inPairs, nameEq⟩ := List.mem_map.mp known
    exact absurd (nameEq ▸ inPairs) (Sorted.get?_eq_none_iff.mp found entry.2)
  | some v =>
    -- Another place of the projection that has the name is the same column.
    have pair := Sorted.mem_of_mem_ofPairs (Sorted.mem_of_get? found)
    obtain ⟨name, -, made⟩ := List.mem_filterMap.mp pair
    obtain ⟨w, other, pairEq⟩ := Option.map_eq_some_iff.mp made
    obtain ⟨text, rfl⟩ := Prod.mk.inj pairEq
    rw [Identifier.eq_of_text text, held] at other
    exact other.symm

end Reading

/-! ### Writing typed rows -/

/-- The layout has distinct columns, and every stored row is typed. -/
structure Table.Typed (t : Table) : Prop where
  distinct : t.layout.Distinct
  rows : ∀ row ∈ t.rows, t.layout.Types row

section Writing

variable {t t' : Table} {b : Bound} {now : Nat} {answer : ResultSet}

/-- The value bound to a column of the layout has its kind. -/
theorem kind_of_value? (distinct : b.template.layout.Distinct) {spec : ColumnSpec}
    (member : spec ∈ b.template.layout.columns) {value : Value}
    (bound : b.value? spec.name = some value) : value.kind = spec.kind := by
  obtain ⟨other, found, kind⟩ := b.exists_column (Sorted.mem_of_get? bound)
  rw [distinct.column?_of_mem member] at found
  cases found
  exact kind.symm

/-- The values bound to columns of the layout are named after these and have their kinds. -/
theorem boundValues_typed (distinct : b.template.layout.Distinct) {specs : List ColumnSpec}
    (known : ∀ spec ∈ specs, spec ∈ b.template.layout.columns) {cells : List (Identifier × Value)}
    (bound : boundValues b specs = .ok cells) :
    cells.map Prod.fst = specs.map ColumnSpec.name ∧
      (cells.map Prod.snd).map Value.kind = specs.map ColumnSpec.kind := by
  induction specs generalizing cells with
  | nil =>
    cases bound
    exact ⟨rfl, rfl⟩
  | cons spec rest ih =>
    obtain ⟨value, first, later⟩ := bind_eq_ok_iff.mp bound
    obtain ⟨others, found, cellsEq⟩ := bind_eq_ok_iff.mp later
    cases cellsEq
    obtain ⟨names, kinds⟩ := ih (fun s member => known s (List.mem_cons_of_mem _ member)) found
    have held : b.value? spec.name = some value := by
      unfold boundValue at first
      split at first
      · cases first
      · rename_i v valueIs
        cases first
        exact valueIs
    have kind := kind_of_value? distinct (known spec List.mem_cons_self) held
    simp only [List.map_cons, names, kinds, kind, and_self]

/-- Whatever is executed on its table by a statement over the layout of the table, rows stay
typed. -/
theorem Table.Typed.execute (typed : t.Typed) (layout : t.layout = b.template.layout)
    (run : t.execute b now = .ok (answer, t')) : t'.Typed := by
  by_cases inserts : b.template.kind = .insert
  · rw [Table.execute, inserts] at run
    obtain ⟨key, boundKey, later⟩ := bind_eq_ok_iff.mp run
    obtain ⟨values, boundRegular, resultEq⟩ := bind_eq_ok_iff.mp later
    cases resultEq
    have distinct : b.template.layout.Distinct := layout ▸ typed.distinct
    obtain ⟨-, keyKinds⟩ := boundValues_typed distinct
      (fun spec member => layout ▸ List.mem_append_left _ member) boundKey
    obtain ⟨names, kinds⟩ := boundValues_typed distinct
      (fun spec member => layout ▸ List.mem_append_right _ member) boundRegular
    refine ⟨typed.distinct, fun row member => ?_⟩
    rcases Sorted.mem_put member with new | old
    · rw [new]
      exact ⟨keyKinds, names, kinds⟩
    · exact typed.rows row old
  · obtain ⟨p, rfl⟩ := Table.filter_of_execute inserts run
    exact ⟨typed.distinct, fun row member => typed.rows row (List.mem_filter.mp member).1⟩

end Writing

/-! ### Sessions that execute their own statements -/

/-- The statement that a session makes of a demand, if it is a preparation that succeeds. -/
def Store.prepared (st : Store) : Demand → List Prepared
  | .prepare t => (st.prepare t).1.toOption.toList
  | .execute _ _ => []
  | .close => []

/-- The statements that a session makes of demands. -/
def Store.preparedIn (st : Store) : List Demand → List Prepared
  | [] => []
  | d :: rest => st.prepared d ++ (st.serve d).preparedIn rest

/-- Whether a demand prepares over distinct columns, or executes a prepared statement to which
values have been bound. -/
def Demand.Allowed (statements : List Prepared) : Demand → Prop
  | .prepare t => t.layout.Distinct
  | .execute b _ => b.statement ∈ statements
  | .close => True

/-- Demands each of which is allowed when the session comes to it. -/
def Store.Own (st : Store) (statements : List Prepared) : List Demand → Prop
  | [] => True
  | d :: rest => d.Allowed statements ∧ (st.serve d).Own (statements ++ st.prepared d) rest

/-- The tables are typed, and every prepared statement has a table under its layout. -/
structure Store.WellTyped (st : Store) (statements : List Prepared) : Prop where
  shaped : st.Shaped
  tables : ∀ name t, st.table? name = some t → t.Typed
  sifted : ∀ p ∈ statements, Sifted p.template
  holds : ∀ p ∈ statements, st.Holds p.template.layout

section Sessions

variable {st st' : Store} {statements : List Prepared}

theorem Store.wellTyped_empty : Store.empty.WellTyped [] where
  shaped := Store.shaped_empty
  tables := fun _ _ found => by cases found
  sifted := fun _ member => absurd member List.not_mem_nil
  holds := fun _ member => absurd member List.not_mem_nil

/-- A registration adds at most an empty table. -/
theorem Store.table?_register {l : Layout} (registered : st.register l = .ok st')
    {name : TableName} {t : Table} (found : st'.table? name = some t) :
    st.table? name = some t ∨ t = ⟨l, []⟩ := by
  unfold Store.register at registered
  cases known : st.table? l.table with
  | some old =>
    simp only [known] at registered
    split at registered
    · cases registered
      exact .inl found
    · cases registered
  | none =>
    simp only [known, Except.ok.injEq] at registered
    rw [← registered, Store.table?_add, Option.or_eq_some_iff] at found
    rcases found with before | ⟨-, added⟩
    · exact .inl before
    · split at added
      · exact .inr (Option.some.inj added).symm
      · cases added

/-- A preparation over distinct columns leaves typed tables, and its statement has one. -/
theorem Store.WellTyped.prepare (typed : st.WellTyped statements) {t : Template}
    (distinct : t.layout.Distinct) :
    (st.prepare t).2.WellTyped (statements ++ st.prepared (.prepare t)) := by
  have onward := (st.prepare_leaves t).1
  rcases st.prepare_cases t with ⟨e, run⟩ | ⟨st', registered, run⟩
  · simp only [Store.prepared, run, Except.toOption, Option.toList_none, List.append_nil]
    exact typed
  · have accepted : (st.prepare t).1 = .ok ⟨t, t.cql⟩ := by rw [run]
    obtain ⟨sifted, -, -⟩ := Store.sifted_of_prepare accepted
    have held := (Store.holds_prepare run).2
    rw [run] at onward
    simp only [Store.prepared, run, Except.toOption, Option.toList_some]
    refine ⟨onward.shaped typed.shaped, fun name table found => ?_, fun p member => ?_,
      fun p member => ?_⟩
    · rcases Store.table?_register registered found with before | rfl
      · exact typed.tables name table before
      · exact ⟨distinct, fun row member => absurd member List.not_mem_nil⟩
    · rcases List.mem_append.mp member with before | new
      · exact typed.sifted p before
      · exact List.mem_singleton.mp new ▸ sifted
    · rcases List.mem_append.mp member with before | new
      · exact onward.holds _ (typed.holds p before)
      · exact List.mem_singleton.mp new ▸ held

/-- An execution of a prepared statement leaves typed tables. -/
theorem Store.WellTyped.execute (typed : st.WellTyped statements) {b : Bound}
    (own : b.statement ∈ statements) (now : Nat) : (st.execute b now).2.WellTyped statements := by
  have onward := Store.onward_execute typed.shaped b now
  refine ⟨onward.shaped typed.shaped, fun name table found => ?_, typed.sifted,
    fun p member => onward.holds _ (typed.holds p member)⟩
  rcases st.execute_cases b now with
    ⟨e, st', run, tables, -⟩ | ⟨t, t', answer, -, tableIs, executed, run⟩
  · rw [run, Store.table?, tables] at found
    exact typed.tables name table found
  · obtain ⟨held, registered, layout⟩ := typed.holds _ own
    obtain rfl : held = t := Option.some.inj (registered.symm.trans tableIs)
    rw [run, Store.table?_executed ((typed.shaped _ held tableIs).execute executed).1 tableIs]
      at found
    obtain ⟨old, before, rfl⟩ := Option.map_eq_some_iff.mp found
    split
    · exact (typed.tables _ held tableIs).execute layout executed
    · exact typed.tables name old before

/-- Every demand that is allowed leaves typed tables. -/
theorem Store.WellTyped.serve (typed : st.WellTyped statements) {d : Demand}
    (allowed : d.Allowed statements) : (st.serve d).WellTyped (statements ++ st.prepared d) := by
  cases d with
  | prepare t => exact typed.prepare allowed
  | execute b now =>
    rw [Store.prepared, List.append_nil]
    exact typed.execute allowed now
  | close =>
    rw [Store.prepared, List.append_nil]
    exact ⟨typed.shaped, typed.tables, typed.sifted, typed.holds⟩

/-- So do demands one after the other. -/
theorem Store.WellTyped.serveAll (typed : st.WellTyped statements) {demands : List Demand}
    (own : st.Own statements demands) :
    (st.serveAll demands).WellTyped (statements ++ st.preparedIn demands) := by
  induction demands generalizing st statements with
  | nil =>
    rw [Store.preparedIn, List.append_nil]
    exact typed
  | cons d rest ih =>
    rw [Store.preparedIn, ← List.append_assoc]
    exact ih (typed.serve own.1) own.2

theorem Store.Own.front {before after : List Demand} (own : st.Own statements (before ++ after)) :
    st.Own statements before := by
  induction before generalizing st statements with
  | nil => trivial
  | cons d rest ih => exact ⟨own.1, ih own.2⟩

end Sessions

/-- However a session is used with its own statements over distinct columns, the layout of a table
never changes, and every stored row has one value for each column of the primary key, in its order,
and one for each other column, of the kinds of the columns.  So for a prepared statement there is a
table with its layout, and of every row of it each projected column has a value of its kind. -/
theorem Store.rows_typed (before after : List Demand)
    (own : Store.empty.Own [] (before ++ after)) :
    let st := Store.empty.serveAll before
    (∀ name t, st.table? name = some t → t.Typed ∧
      ∃ t', (st.serveAll after).table? name = some t' ∧ t'.layout = t.layout) ∧
    ∀ p ∈ Store.empty.preparedIn before, ∃ t, st.table? p.template.layout.table = some t ∧
      t.layout = p.template.layout ∧
      ∀ row ∈ t.rows, ∀ column ∈ p.template.projection, ∃ spec value,
        t.layout.column? column = some spec ∧ value.kind = spec.kind ∧
          (project t.layout p.template.projection row).get? column.text = some value := by
  intro st
  have typed : st.WellTyped (Store.empty.preparedIn before) :=
    Store.wellTyped_empty.serveAll own.front
  refine ⟨fun name t found => ⟨typed.tables name t found, ?_⟩, fun p member => ?_⟩
  · have name' : t.layout.table = name := Store.table?_layout found
    obtain ⟨t', found', layout⟩ := (Store.onward_serveAll typed.shaped after).holds t.layout
      ⟨t, name' ▸ found, rfl⟩
    exact ⟨t', name' ▸ found', layout⟩
  · obtain ⟨t, found, layout⟩ := typed.holds p member
    have rows := typed.tables _ t found
    refine ⟨t, found, layout, fun row stored column projected => ?_⟩
    obtain ⟨spec, known⟩ := (typed.sifted p member).known column (by simp [projected])
    rw [← layout] at known
    obtain ⟨value, held, kind⟩ := cell?_typed rows.distinct (rows.rows row stored) known
    exact ⟨spec, value, known, kind, project_get? projected held⟩

/-- The insert of the plain repository with its columns in reverse. -/
def reversedInsert : Template :=
  { plainRepository.schema.template .insert with
    projection := plainRepository.schema.columns.reverse }

/-- A payload, an exchange id and a key, bound in this order. -/
def reversedBound : Bound :=
  ⟨⟨reversedInsert, reversedInsert.cql⟩, [.blob ByteArray.empty, .text "x", .text "k"],
    by decide +kernel⟩

/-- An insert that lists the payload first and the key last stores a typed row. -/
theorem Store.rows_typed_reversed :
    let st := Store.empty.serveAll [.prepare reversedInsert, .execute reversedBound 0]
    Store.empty.Own [] [.prepare reversedInsert, .execute reversedBound 0, .close] ∧
      ∃ t, st.table? reversedInsert.layout.table = some t ∧
        t.rows.map Prod.fst = [[.text "k"]] ∧ t.Typed := by
  intro st
  have distinct : reversedInsert.layout.Distinct := by
    unfold Layout.Distinct
    decide +kernel
  have own : Store.empty.Own [] [.prepare reversedInsert, .execute reversedBound 0, .close] := by
    refine ⟨distinct, ?_, trivial, trivial⟩
    show reversedBound.statement ∈ [] ++ Store.empty.prepared (.prepare reversedInsert)
    decide +kernel
  have stored : (st.table? reversedInsert.layout.table).any (fun t =>
      decide (t.rows.map Prod.fst = [[.text "k"]])) = true := by decide +kernel
  obtain ⟨t, found, keys⟩ := (Option.any_eq_true _ _).mp stored
  exact ⟨own, t, found, of_decide_eq_true keys,
    ((Store.rows_typed [.prepare reversedInsert, .execute reversedBound 0] [.close] own).1 _ t
      found).1⟩

end Memory

end GroupStore
