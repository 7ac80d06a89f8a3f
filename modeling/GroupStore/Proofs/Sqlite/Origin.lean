import GroupStore.Proofs.SharedFile
import GroupStore.Proofs.Sqlite.Requests

/-!
# Where the rows of a table come from

A row is in a table because some insert has written it there; everything else that a file is asked
for leaves rows alone or takes them away.  So if all that is written into a table is written over
the layout under which the table was created, every row of it can be read as a value of
the right kind in every column.

* `File.serve_rows` — the rows of a table after a request;
* `Definition.Typed`, `typed_of_writes` — rows with a value of each column's kind;
* `File.Request.WritesOver`, `File.Filled.serveAll` — tables of one layout.
-/

namespace GroupStore.Sqlite

/-! ### Rows after a request -/

/-- Tables are found under names of one spelling but for the case. -/
theorem Database.relation?_congr {a b : String} (namesAgree : sameName a b = true) (db : Database) :
    db.relation? a = db.relation? b := by
  have names (r : Relation) : sameName r.definition.name a = sameName r.definition.name b := by
    rw [sameName_comm, sameName_trans namesAgree, sameName_comm]
  simp only [Database.relation?, names]

/-- A table keeps its definition, and each of its rows was there or is a new one. -/
def Relation.Continues (r r' : Relation) (new : Record → Prop) : Prop :=
  r'.definition = r.definition ∧ ∀ row ∈ r'.rows, row ∈ r.rows ∨ new row

/-- The row that a statement writes into the table of a name with a definition. -/
def Writes (name : String) (d : Definition) (b : Bound) (now : Nat) (row : Record) : Prop :=
  ∃ table columns, sqlOf b.statement = .ok (.upsert table columns) ∧ sameName table name = true ∧
    row.cells = d.cellsOf columns (parameters b now) ∧ d.missing? row.cells = none

theorem Database.relation?_put {db : Database} {table name : String} {r r' : Relation}
    (new : Relation) (found : db.relation? table = some r)
    (definition : new.definition = r.definition)
    (after : (db.replace table new).relation? name = some r') :
    r' = new ∧ db.relation? name = some r ∧ sameName table name = true ∨
      db.relation? name = some r' := by
  have own : sameName new.definition.name table = true := by
    rw [definition]
    exact relation?_name found
  rw [relation?_replace own, Option.map_eq_some_iff] at after
  obtain ⟨old, relationIs, rfl⟩ := after
  by_cases hit : sameName old.definition.name table = true
  · have spelled : sameName table name = true := by
      rw [← sameName_trans hit]
      exact relation?_name relationIs
    have oldEq : some old = some r := by rw [← found, relation?_congr spelled, relationIs]
    cases oldEq
    exact .inl ⟨if_pos hit, relationIs, spelled⟩
  · rw [if_neg hit]
    exact .inr relationIs

/-- A statement adds at most the row that it writes. -/
theorem Relation.run_continues {r r' : Relation} {sql : Sql} {ps : List Cell} {answer : Answer}
    (run : r.run sql ps = .ok (answer, r')) : r.Continues r' fun row =>
      ∃ table columns, sql = .upsert table columns ∧
        row.cells = r.definition.cellsOf columns ps ∧ r.definition.missing? row.cells = none := by
  refine ⟨run_definition run, fun row member => ?_⟩
  cases sql with
  | upsert table columns =>
    obtain ⟨number, -, complete, rfl⟩ := run_upsert run
    rcases List.mem_append.mp member with old | new
    · exact .inl (List.mem_filter.mp old).1
    · obtain rfl := List.mem_singleton.mp new
      exact .inr ⟨table, columns, rfl, rfl, complete⟩
  | select table columns rows =>
    cases run
    exact .inl member
  | delete table rows =>
    cases run
    exact .inl (List.mem_filter.mp member).1

theorem purgeAll_continues (now : Nat) (layouts : List Layout) {db : Database} {name : String}
    {r' : Relation} (after : (purgeAll now layouts db).2.relation? name = some r') :
    ∃ r, db.relation? name = some r ∧ r.Continues r' fun _ => False := by
  induction layouts generalizing db with
  | nil => exact ⟨r', after, rfl, fun _ => .inl⟩
  | cons l rest ih =>
    have later : (purgeAll now rest (db.purge l.table.name.text (reading now)).2).2.relation? name =
        some r' := after
    obtain ⟨r₁, relationIs, definition, rows⟩ := ih later
    unfold Database.purge at relationIs
    split at relationIs
    · exact ⟨r₁, relationIs, definition, rows⟩
    · rename_i r found
      let kept := r.rows.filter fun row => r.definition.isLive row (reading now)
      rcases Database.relation?_put { r with rows := kept } found rfl relationIs with
        ⟨rfl, before, -⟩ | other
      · refine ⟨r, before, definition, fun row member => ?_⟩
        exact (rows row member).imp (fun inside => (List.mem_filter.mp inside).1) id
      · exact ⟨r₁, other, definition, rows⟩

namespace File

variable {f : File} {name : String} {r' : Relation}

/-- After a request a table is new and empty, or it has its definition and of its rows at most one
that was not there, which an insert into it has just written. -/
theorem serve_rows {request : Request}
    (after : (f.serve request).database.relation? name = some r') :
    r'.rows = [] ∨ ∃ r, f.database.relation? name = some r ∧
      r.Continues r' fun row => ∃ session b now, request = .execute session b now ∧
        Writes name r.definition b now row := by
  have unchanged (relationIs : f.database.relation? name = some r') :
      ∃ r, f.database.relation? name = some r ∧ r.Continues r' fun row =>
        ∃ session b now, request = .execute session b now ∧ Writes name r.definition b now row :=
    ⟨r', relationIs, rfl, fun _ => .inl⟩
  cases request with
  | connect => exact .inr (unchanged after)
  | close session =>
    refine .inr (unchanged ?_)
    simp only [serve, File.close] at after
    split at after <;> exact after
  | prepare session t =>
    simp only [serve, File.prepare] at after
    split at after
    · exact .inr (unchanged after)
    · rename_i c connected
      rcases prepare_cases t c f.database with ⟨e, refused⟩ | ⟨c', db', registered, left, -⟩
      · rw [refused] at after
        exact .inr (unchanged after)
      · rw [left] at after
        rcases (Connection.register_cases registered).2 with ⟨-, rfl⟩ | ⟨-, -, created⟩
        · exact .inr (unchanged after)
        · rcases Database.create_cases created with ⟨-, rfl⟩ | ⟨-, -, rfl⟩
          · exact .inr (unchanged after)
          · -- The new table lies behind those that were there.
            have found : (f.database.relations ++ [(⟨.ofLayout t.layout, []⟩ : Relation)]).find?
                (fun r => sameName r.definition.name name) = some r' := after
            rw [List.find?_append, Option.or_eq_some_iff] at found
            rcases found with old | ⟨-, new⟩
            · exact .inr (unchanged old)
            · rw [List.mem_singleton.mp (List.mem_of_find?_eq_some new)]
              exact .inl rfl
  | execute session b now =>
    simp only [serve, File.execute] at after
    split at after
    · exact .inr (unchanged after)
    · simp only [Sqlite.execute] at after
      split at after
      · exact .inr (unchanged after)
      · split at after
        · rename_i result db' ran
          obtain ⟨sql, answer, own, whole, -⟩ := runBound_eq_ok ran
          obtain ⟨r, r₁, found, run, rfl⟩ := Database.run_eq_ok whole
          obtain ⟨definition, rows⟩ := Relation.run_continues run
          rcases Database.relation?_put _ found definition after with ⟨rfl, before, spelled⟩ | other
          · refine .inr ⟨r, before, definition, fun row member => (rows row member).imp id ?_⟩
            rintro ⟨table, columns, rfl, written, full⟩
            exact ⟨session, b, now, rfl, table, columns, own, spelled, written, full⟩
          · exact .inr (unchanged other)
        · exact .inr (unchanged after)
  | purge session now =>
    simp only [serve, File.purge] at after
    split at after
    · exact .inr (unchanged after)
    · rename_i count db purged
      obtain ⟨c, -, purged⟩ := Option.bind_eq_some_iff.mp purged
      unfold Sqlite.purge at purged
      split at purged
      · cases purged
      · have all : (purgeAll now c.layouts f.database).2 = db :=
          congrArg Prod.snd (Option.some.inj purged)
        rw [← all] at after
        obtain ⟨r, before, definition, rows⟩ := purgeAll_continues now c.layouts after
        exact .inr ⟨r, before, definition,
          fun row member => .inl ((rows row member).resolve_right id)⟩

end File

/-! ### Rows of a layout -/

/-- The names of a layout's columns and that of the hidden one differ beyond case. -/
theorem Definition.Distinct.eq_of_sameName {l : Layout} (distinct : (ofLayout l).Distinct)
    {a b : Column} (first : a ∈ (ofLayout l).columns) (second : b ∈ (ofLayout l).columns)
    (namesAgree : sameName a.name b.name = true) : a = b :=
  List.inj_on_of_nodup_map (f := fun column : Column => caseless column.name) distinct first second
    (sameName_iff.mp namesAgree)

theorem hidden_mem (l : Layout) : hidden ∈ (Definition.ofLayout l).columns :=
  List.mem_append_right _ (List.mem_singleton.mpr rfl)

/-- No column of a layout is called like the hidden one. -/
def SparesExpiry (l : Layout) : Prop :=
  ∀ spec ∈ l.columns, sameName spec.name.text expiryColumn = false

/-- A layout under which a table has been created leaves the hidden name free. -/
theorem Definition.Distinct.sparesExpiry {l : Layout} (distinct : (ofLayout l).Distinct) :
    SparesExpiry l := by
  intro spec member
  rw [Bool.eq_false_iff]
  intro namesAgree
  have clash := distinct.eq_of_sameName (columnOf_mem member) (hidden_mem l) namesAgree
  cases congrArg Column.required clash

/-- The hidden column does not hold the number of the row. -/
theorem isNumberColumn_hidden {l : Layout} (distinct : (Definition.ofLayout l).Distinct) :
    (Definition.ofLayout l).isNumberColumn hidden = false :=
  (isNumber_of_mem distinct (hidden_mem l)).symm.trans (isNumber_expiry distinct)

section Columns

variable {d : Definition} (distinct : d.Distinct) {column : Column} (member : column ∈ d.columns)
  {row : Record}

include distinct member

/-- The number of a row is the content of the column that holds it. -/
theorem Definition.cell_of_isNumberColumn (number : d.isNumberColumn column = true) :
    d.cell row column.name = .integer row.number := by
  rw [cell, isNumber_of_mem distinct member, number, if_pos rfl]

/-- Where the cells of a row are given column by column, each is that of its column. -/
theorem Definition.cell_of_map (plain : d.isNumberColumn column = false) (g : Column → Cell)
    (cells : row.cells = d.columns.map g) : d.cell row column.name = g column := by
  refine cell_of_mem distinct column (by rw [cells, List.length_map]) ?_ plain
  rw [cells, ← List.map_prod_left_eq_zip]
  exact List.mem_map_of_mem (f := fun column => (column, g column)) member

/-- A column of a new row holds what the statement binds to its name, as the column converts it. -/
theorem Definition.cell_cellsOf_of_mem (plain : d.isNumberColumn column = false)
    {columns : List String} {ps : List Cell} (written : row.cells = d.cellsOf columns ps) :
    d.cell row column.name =
      match (columns.zip ps).find? fun entry => sameName entry.1 column.name with
      | some entry => column.affinity.convert entry.2
      | none => .null := by
  rw [cell_of_map distinct member plain _ written, plain]
  rfl

/-- No required column of a complete row is empty. -/
theorem Definition.cell_ne_null (width : d.columns.length = row.cells.length)
    (complete : d.missing? row.cells = none) (required : column.required = true)
    (plain : d.isNumberColumn column = false) : d.cell row column.name ≠ .null := by
  obtain ⟨i, inside, rfl⟩ := List.mem_iff_getElem.mp member
  have paired : (d.columns[i], row.cells[i]) ∈ d.columns.zip row.cells :=
    List.mem_iff_getElem.mpr
      ⟨i, List.length_zip ▸ Nat.lt_min.mpr ⟨inside, width ▸ inside⟩, by simp⟩
  rw [missing?, Option.map_eq_none_iff, List.find?_eq_none] at complete
  have filled := complete _ paired
  rw [cell_of_mem distinct _ width paired plain]
  simpa [required, plain] using filled

end Columns

/-- The SQL that writes is an insert's, with its projection first. -/
theorem sqlOf_upsert {p : Prepared} {table : String} {columns : List String}
    (own : sqlOf p = .ok (.upsert table columns)) :
    p.template.kind = .insert ∧
      ∃ rest, columns = p.template.projection.map Identifier.text ++ rest ∧
      ∀ name ∈ rest, name = expiryColumn := by
  have text (other : sqlOfText p.template = .ok (.upsert table columns)) :
      p.template.kind = .insert ∧ ∃ rest,
        columns = p.template.projection.map Identifier.text ++ rest ∧
          ∀ name ∈ rest, name = expiryColumn := by
    simp only [sqlOfText] at other
    split at other
    · rename_i insert
      split at other
      · cases other
      · cases other
        exact ⟨insert, [], (List.append_nil _).symm, by simp⟩
    · split at other
      · cases other
      · split at other <;> cases other
  rw [sqlOf] at own
  split at own
  · rename_i sql translated
    split at own
    · cases own
      simp only [translate] at translated
      split at translated
      · rename_i insert
        cases translated
        exact ⟨insert, [expiryColumn], rfl, fun name only => List.mem_singleton.mp only⟩
      · cases translated
      · cases translated
      · split at translated <;> cases translated
      · split at translated <;> cases translated
    · exact text own
  · exact text own

/-- Whether every column of a layout can be read in a row of a table as a value of its kind. -/
def Definition.Typed (d : Definition) (l : Layout) (row : Record) : Prop :=
  ∀ spec ∈ l.columns, ∃ value : Value, (d.cell row spec.name.text).toValue? spec.kind = some value

/-- What an insert binds under the name of a column has the kind of the column. -/
theorem kind_of_bound {b : Bound} (distinct : (Definition.ofLayout b.template.layout).Distinct)
    {spec : ColumnSpec} (member : spec ∈ b.template.layout.columns) {name : Identifier}
    {value : Value} (bound : (name, value) ∈ b.template.parameterColumns.zip b.values)
    (namesAgree : sameName name.text spec.name.text = true) : value.kind = spec.kind := by
  obtain ⟨own, found, kind⟩ := b.exists_column bound
  obtain ⟨inside, rfl⟩ := Layout.of_column?_eq_some found
  have columns : columnOf own = columnOf spec :=
    distinct.eq_of_sameName (columnOf_mem inside) (columnOf_mem member) namesAgree
  rw [← kind, columnOf_injective columns]

/-- A column of a layout that holds the number of the row is one of flags. -/
theorem kind_of_isNumberColumn {d : Definition} {spec : ColumnSpec}
    (number : d.isNumberColumn (columnOf spec) = true) : spec.kind = .boolean := by
  have integers : Affinity.ofKind spec.kind = .integer := (affinity_of_isNumberColumn number).1
  cases kind : spec.kind <;> rw [kind] at integers <;> first | rfl | cases integers

/-- A row that is written into the table of its layout holds values of the right kinds. -/
theorem typed_of_writes {name : String} {b : Bound} {now : Nat} {row : Record}
    (distinct : (Definition.ofLayout b.template.layout).Distinct)
    (writes : Writes name (.ofLayout b.template.layout) b now row) :
    (Definition.ofLayout b.template.layout).Typed b.template.layout row := by
  obtain ⟨table, columns, own, -, written, complete⟩ := writes
  obtain ⟨insert, rest, rfl, only⟩ : b.template.kind = .insert ∧ ∃ rest,
      columns = b.template.projection.map Identifier.text ++ rest ∧
        ∀ name ∈ rest, name = expiryColumn := sqlOf_upsert own
  have lengths : (b.template.projection.map Identifier.text).length =
      (b.values.map Cell.ofValue).length := by
    rw [List.length_map, List.length_map, b.length_projection insert]
  intro spec member
  have column := columnOf_mem member
  cases plain : (Definition.ofLayout b.template.layout).isNumberColumn (columnOf spec) with
  | true =>
    have number : (Definition.ofLayout b.template.layout).cell row spec.name.text =
        .integer row.number := Definition.cell_of_isNumberColumn distinct column plain
    exact ⟨.boolean (row.number ≠ 0), by rw [number, kind_of_isNumberColumn plain]; rfl⟩
  | false =>
    have cell := Definition.cell_cellsOf_of_mem distinct column plain written
    have filled := Definition.cell_ne_null distinct column
      (by rw [written]; simp [Definition.cellsOf]) complete rfl plain
    split at cell
    · rename_i entry found
      have named : sameName entry.1 spec.name.text = true :=
        List.find?_some (p := fun entry : String × Cell => sameName entry.1 spec.name.text) found
      have paired := List.mem_of_find?_eq_some found
      rw [parameters, List.zip_append lengths, List.mem_append] at paired
      rcases paired with bound | hiddenOnly
      · rw [List.zip_map, ← b.template.parameterColumns_insert insert] at bound
        obtain ⟨⟨name, value⟩, inside, rfl⟩ := List.mem_map.mp bound
        have kind := kind_of_bound distinct member inside named
        have converted := convert_ofValue value
        rw [kind] at converted
        have stored : (Definition.ofLayout b.template.layout).cell row spec.name.text =
            .ofValue value := cell.trans converted
        exact ⟨value, by rw [stored, ← kind, toValue?_ofValue]⟩
      · -- No column of the layout has the name of the hidden one.
        rw [only entry.1 (List.of_mem_zip hiddenOnly).1] at named
        have clash := distinct.eq_of_sameName (hidden_mem _) column named
        cases congrArg Column.required clash
    · exact absurd cell filled

/-! ### Tables of one layout -/

namespace File

/-- Whatever a request writes into the table of a layout, it writes over the layout. -/
def Request.WritesOver (l : Layout) : Request → Prop
  | .execute _ b _ => ∀ table columns, sqlOf b.statement = .ok (.upsert table columns) →
      sameName table l.table.name.text = true → b.template.layout = l
  | _ => True

/-- If the table of a layout was created under the layout, all its rows have the layout's kinds. -/
def Filled (f : File) (l : Layout) : Prop :=
  ∀ r, f.database.relation? l.table.name.text = some r → r.definition = .ofLayout l →
    ∀ row ∈ r.rows, r.definition.Typed l row

variable {f : File} {l : Layout}

theorem filled_empty (l : Layout) : empty.Filled l := fun _ found => nomatch found

theorem Filled.serve (filled : f.Filled l) (sound : f.Sound) {request : Request}
    (overwrites : request.WritesOver l) : (f.serve request).Filled l := by
  intro r' found definition row member
  rcases serve_rows found with empty | ⟨r, before, definitionEq, rows⟩
  · rw [empty] at member
    cases member
  · have own : r.definition = .ofLayout l := definitionEq.symm.trans definition
    rw [definitionEq]
    rcases rows row member with old | ⟨session, b, now, rfl, writes⟩
    · exact filled r before own row old
    · obtain rfl : b.template.layout = l := by
        obtain ⟨table, columns, statement, spelled, -⟩ := writes
        exact overwrites table columns statement spelled
      have distinct : (Definition.ofLayout b.template.layout).Distinct := by
        obtain ⟨-, l, -, definition, definable⟩ := sound.table before
        rw [← own, definition]
        exact definable.distinct
      rw [own] at writes ⊢
      exact typed_of_writes distinct writes

/-- The rows of a table that was created under a layout and is written over it have its kinds. -/
theorem Filled.serveAll (filled : f.Filled l) (sound : f.Sound) {requests : List Request}
    (overwrites : ∀ request ∈ requests, request.WritesOver l) : (f.serveAll requests).Filled l := by
  induction requests generalizing f with
  | nil => exact filled
  | cons request rest ih =>
    exact ih (filled.serve sound (overwrites request List.mem_cons_self)) (sound.serve request).1
      fun other later => overwrites other (List.mem_cons_of_mem _ later)

/-- A select over the layout can read rows of the layout's kinds. -/
theorem legible_of_typed {b : Bound} {d : Definition} {row : Record}
    (typed : d.Typed b.template.layout row)
    (known : ∀ name ∈ b.template.projection, ∃ spec, b.template.layout.column? name = some spec) :
    d.Legible b row := by
  intro name member
  obtain ⟨spec, found⟩ := known name member
  obtain ⟨inside, rfl⟩ := Layout.of_column?_eq_some found
  obtain ⟨value, cell⟩ := typed spec inside
  exact ⟨spec, value, found, cell⟩

end File

end GroupStore.Sqlite
