import Mathlib.Data.List.Basic
import GroupStore.Proofs.Sqlite.Host

/-!
# A database table as one of its repositories sees it

A repository's statements compare its prefix columns with its prefix values, so they work on the
rows that match there, whoever stored them.  Another repository of the table does not touch those
rows if some column of the table's key sets the two apart, and if none of its columns stands for the
number of a row.

* `Definition.sees`, `Database.viewOf` — the rows under the prefix of a schema;
* `Definition.Separates` — a key column in which two schemas store values that differ there;
* `Definition.Unnumbers` — a schema of which no column stands for the number of a row;
* `Database.run_own` — a repository's own statement has an outcome that its view decides;
* `Database.run_foreign` — a statement of another repository leaves the view as it is.
-/

namespace GroupStore

open Sqlite

/-! ### The prefix of a schema -/

namespace Schema

variable (s : Schema)

/-- The value that the repository stores in the prefix column of a name. -/
def fixed? (name : String) : Option Value :=
  (s.settings.fixedPrefix.entries.find? fun entry => sameName entry.column.text name).map
    PrefixColumn.value

/-- A value that is found belongs to a prefix column of the name. -/
theorem entry_of_fixed? {name : String} {value : Value} (fixed : s.fixed? name = some value) :
    ∃ entry ∈ s.settings.fixedPrefix.entries, sameName entry.column.text name = true ∧
      entry.value = value := by
  obtain ⟨entry, found, valueEq⟩ := Option.map_eq_some_iff.mp fixed
  have own : sameName entry.column.text name = true :=
    List.find?_some (p := fun entry : PrefixColumn => sameName entry.column.text name) found
  exact ⟨entry, List.mem_of_find?_eq_some found, own, valueEq⟩

/-- The prefix values as parameters. -/
def prefixCells : List Cell := s.prefixValues.map Cell.ofValue

theorem prefix_zip : (columnNames s.prefixSpecs).zip s.prefixCells =
    s.settings.fixedPrefix.entries.map fun entry =>
      (entry.column.text, Cell.ofValue entry.value) := by
  simp only [columnNames, prefixSpecs, prefixCells, prefixValues, FixedPrefix.values, List.map_map,
    List.zip_map']
  rfl

theorem prefix_length : (columnNames s.prefixSpecs).length = s.prefixCells.length := by
  simp [columnNames, prefixSpecs, prefixCells, prefixValues, FixedPrefix.values]

/-- Every statement writes rows, or works on rows under some prefix. -/
theorem sql_cases (kind : StatementKind) :
    (∃ columns, s.sql kind =
      .upsert s.settings.table.name.text (columnNames s.prefixSpecs ++ columns)) ∨
    (∃ columns more live, s.sql kind =
      .select s.settings.table.name.text columns ⟨columnNames s.prefixSpecs ++ more, live⟩) ∨
    ∃ more live, s.sql kind =
      .delete s.settings.table.name.text ⟨columnNames s.prefixSpecs ++ more, live⟩ := by
  have key : columnNames s.layout.primaryKey = columnNames s.prefixSpecs ++ [s.keyColumn.text] := by
    rw [s.layout_primaryKey, columnNames, List.map_append]
    rfl
  cases kind with
  | insert =>
    refine .inl ⟨[s.keyColumn.text] ++ (columnNames s.layout.regular ++ [expiryColumn]), ?_⟩
    rw [sql, s.columns_texts, Layout.columns, columnNames, List.map_append, ← columnNames,
      ← columnNames, key, List.append_assoc, List.append_assoc]
  | selectByKey => exact .inr (.inl ⟨_, _, _, by rw [sql, key]⟩)
  | deleteByKey => exact .inr (.inr ⟨_, _, by rw [sql, key]⟩)
  | selectKeyAndId =>
    refine .inr (.inl ⟨_, [], _, by rw [sql, List.append_nil]⟩)
  | conditionalDelete =>
    refine .inr (.inr ⟨[s.keyColumn.text] ++ [s.exchangeIdColumn.text], true, ?_⟩)
    rw [sql, conditionSpecs, columnNames, List.map_append, ← columnNames, key, List.append_assoc]
    rfl

end Schema

namespace Sqlite

variable {d : Definition} {s : Schema}

/-! ### Rows under a prefix -/

/-- Whether a row is under the prefix of a schema. -/
def Definition.sees (d : Definition) (s : Schema) (row : Record) : Bool :=
  d.matches row (columnNames s.prefixSpecs) s.prefixCells

theorem Definition.matches_append (row : Record) {names : List String} {cells : List Cell}
    (lengthEq : names.length = cells.length) (more : List String) (others : List Cell) :
    d.matches row (names ++ more) (cells ++ others) =
      (d.matches row names cells && d.matches row more others) := by
  induction names generalizing cells with
  | nil =>
    rw [List.length_eq_zero_iff.mp lengthEq.symm]
    rfl
  | cons name rest ih =>
    cases cells with
    | nil => cases lengthEq
    | cons c cells =>
      simp only [List.cons_append, Definition.matches, ih (Nat.succ.inj lengthEq), Bool.and_assoc]

/-- A guard on the prefix and more admits rows under the prefix only. -/
theorem Guard.sees_of_admits {more : List String} {live : Bool} {others : List Cell} {row : Record}
    (admitted : (⟨columnNames s.prefixSpecs ++ more, live⟩ : Guard).admits d
      (s.prefixCells ++ others) row = true) : d.sees s row = true := by
  rw [Guard.admits, Definition.matches_append row s.prefix_length, Bool.and_eq_true,
    Bool.and_eq_true] at admitted
  exact admitted.1.1

theorem Cell.measure_of_sameAs {a b : Cell} (cellsAgree : a.sameAs b = true) :
    a.measure = b.measure :=
  of_decide_eq_true (Bool.and_eq_true _ _ ▸ cellsAgree).2

/-- Where a row matches, each cell is compared as the converted one of the same name. -/
theorem Definition.measure_of_matches {row : Record} {names : List String} {cells : List Cell}
    (matched : d.matches row names cells = true) {name : String} {c : Cell}
    (member : (name, c) ∈ names.zip cells) :
    (d.cell row name).measure = (d.convert name c).measure := by
  induction names generalizing cells with
  | nil => cases member
  | cons first rest ih =>
    cases cells with
    | nil => cases matched
    | cons cell others =>
      rw [Definition.matches, Bool.and_eq_true] at matched
      rcases List.mem_cons.mp member with pairEq | later
      · cases pairEq
        exact Cell.measure_of_sameAs matched.1
      · exact ih matched.2 later

/-- A row under the prefix has what is compared as the converted value in each prefix column. -/
theorem Definition.measure_of_sees {row : Record} (seen : d.sees s row = true) {name : String}
    (known : d.hasColumn name = true) {value : Value} (fixed : s.fixed? name = some value) :
    (d.cell row name).measure = (d.convert name (Cell.ofValue value)).measure := by
  obtain ⟨entry, member, own, rfl⟩ := s.entry_of_fixed? fixed
  rw [← Definition.cell_congr own known, ← Definition.convert_congr own]
  refine Definition.measure_of_matches seen ?_
  rw [s.prefix_zip]
  exact List.mem_map_of_mem member

/-- A row that is inserted has the converted value in each prefix column of the table. -/
theorem Definition.cell_cellsOf {name : String} {value : Value} (fixed : s.fixed? name = some value)
    (known : d.hasColumn name = true) (plain : d.isNumber name = false) (number : Int)
    (more : List String) (others : List Cell) :
    d.cell ⟨number, d.cellsOf (columnNames s.prefixSpecs ++ more) (s.prefixCells ++ others)⟩ name =
      d.convert name (Cell.ofValue value) := by
  obtain ⟨entry, found, rfl⟩ := Option.map_eq_some_iff.mp fixed
  obtain ⟨column, hit⟩ := Option.isSome_iff_exists.mp known
  have first : d.columns.find? (fun column => sameName column.name name) = some column := hit
  have own : sameName column.name name = true :=
    List.find?_some (p := fun column : Column => sameName column.name name) first
  have free : d.isNumberColumn column = false := by
    rw [isNumber, hit] at plain
    exact plain
  have parameter : ((columnNames s.prefixSpecs ++ more).zip (s.prefixCells ++ others)).find?
      (fun entry => sameName entry.1 column.name) =
        some (entry.column.text, Cell.ofValue entry.value) := by
    have names (e : PrefixColumn) : sameName e.column.text column.name =
        sameName e.column.text name := by
      rw [sameName_comm, sameName_trans own, sameName_comm]
    rw [List.zip_append s.prefix_length, s.prefix_zip, List.find?_append, List.find?_map]
    simp only [Function.comp_def, names, found, Option.map_some, Option.some_or]
  simp only [Definition.cell, Definition.cellsOf, Definition.convert, plain, known, hit,
    ← List.map_prod_left_eq_zip, List.find?_map, Function.comp_def, first, Option.map_some, Option.getD_some, free, parameter,
    Bool.false_eq_true, if_false, if_true]

/-! ### Two repositories on a table -/

/-- In some column of the key of a table two repositories store values that differ there. -/
def Definition.Separates (d : Definition) (s t : Schema) : Prop :=
  ∃ name ∈ d.key, ∃ x y, s.fixed? name = some x ∧ t.fixed? name = some y ∧
    (d.convert name (Cell.ofValue x)).measure ≠ (d.convert name (Cell.ofValue y)).measure

theorem Definition.Separates.symm {t : Schema} (separates : d.Separates s t) :
    d.Separates t s := by
  obtain ⟨name, member, x, y, fixed, fixed', differ⟩ := separates
  exact ⟨name, member, y, x, fixed', fixed, differ.symm⟩

/-- No column of a schema stands for the number of a row of a table. -/
def Definition.Unnumbers (d : Definition) (s : Schema) : Prop :=
  d.Unnumbered (columnNames s.layout.columns)

/-- Then no name in a statement of the schema does, on a table that was created for a layout. -/
theorem Definition.Unnumbers.names (plain : d.Unnumbers s) (created : d.Created)
    (kind : StatementKind) : d.Unnumbered (s.sql kind).names := by
  have inside {specs : List ColumnSpec} (subset : ∀ spec ∈ specs, spec ∈ s.layout.columns) :
      d.Unnumbered (columnNames specs) := by
    intro name member
    obtain ⟨spec, found, rfl⟩ := List.mem_map.mp member
    exact plain _ (List.mem_map_of_mem (subset spec found))
  have all : d.Unnumbered (s.columns.map Identifier.text) := s.columns_texts ▸ plain
  have also {names : List String} (others : d.Unnumbered names) (live : Bool) :
      d.Unnumbered (names ++ if live then [expiryColumn] else []) := by
    intro name member
    rcases List.mem_append.mp member with other | last
    · exact others name other
    · cases live with
      | true =>
        rw [List.mem_singleton.mp last]
        exact created.isNumber_expiry
      | false => cases last
  have both {names names' : List String} (first : d.Unnumbered names)
      (second : d.Unnumbered names') : d.Unnumbered (names ++ names') := by
    intro name member
    exact (List.mem_append.mp member).elim (first name) (second name)
  cases kind with
  | insert => exact also all true
  | selectByKey => exact both all (also (inside (s.parameterSpecs_subset .selectByKey)) true)
  | deleteByKey => exact also (inside (s.parameterSpecs_subset .deleteByKey)) false
  | selectKeyAndId =>
    refine both ?_ (also (inside (s.parameterSpecs_subset .selectKeyAndId)) true)
    show d.Unnumbered (columnNames [⟨s.keyColumn, .text⟩, ⟨s.exchangeIdColumn, .text⟩])
    refine inside fun spec member => s.parameterSpecs_subset .conditionalDelete spec ?_
    rw [Schema.parameterSpecs, s.layout_primaryKey]
    simp only [List.mem_cons, List.not_mem_nil, or_false] at member
    rcases member with rfl | rfl <;> simp
  | conditionalDelete => exact also (inside (s.parameterSpecs_subset .conditionalDelete)) true

section Own

variable {rows₁ rows₂ : List Record}
  (seen : (rows₁.filter (d.sees s)).map Record.cells = (rows₂.filter (d.sees s)).map Record.cells)

include seen

/-- A repository's own statement has an outcome that the rows under its prefix decide, and leaves
rows there that they decide. -/
theorem Relation.run_own (created : d.Created) (plain : d.Unnumbers s) (kind : StatementKind)
    (others : List Cell) :
    (∃ e, Relation.run ⟨d, rows₁⟩ (s.sql kind) (s.prefixCells ++ others) = .error e ∧
      Relation.run ⟨d, rows₂⟩ (s.sql kind) (s.prefixCells ++ others) = .error e) ∨
    ∃ answer rows₁' rows₂',
      Relation.run ⟨d, rows₁⟩ (s.sql kind) (s.prefixCells ++ others) = .ok (answer, ⟨d, rows₁'⟩) ∧
      Relation.run ⟨d, rows₂⟩ (s.sql kind) (s.prefixCells ++ others) = .ok (answer, ⟨d, rows₂'⟩) ∧
      (rows₁'.filter (d.sees s)).map Record.cells =
        (rows₂'.filter (d.sees s)).map Record.cells := by
  have fixed : d.Unnumbered (columnNames s.prefixSpecs) := by
    intro name member
    obtain ⟨spec, found, rfl⟩ := List.mem_map.mp member
    exact plain _ (List.mem_map_of_mem (s.parameterSpecs_subset .selectKeyAndId spec found))
  have within : (s.sql kind).Within d (s.prefixCells ++ others) (d.sees s) := by
    rcases s.sql_cases kind with ⟨columns, sql⟩ | ⟨columns, more, live, sql⟩ | ⟨more, live, sql⟩
    · rw [sql]
      trivial
    · rw [sql]
      exact fun row => Guard.sees_of_admits
    · rw [sql]
      exact fun row => Guard.sees_of_admits
  rcases Relation.run_alike seen (fun row row' cells => Definition.matches_of_cells cells fixed _)
      (plain.names created kind) (s.prefixCells ++ others) with
    failed | ⟨answer₁, answer₂, rows₁', rows₂', run₁, run₂, alike, answerEq⟩
  · exact .inl failed
  · exact .inr ⟨answer₂, rows₁', rows₂', answerEq within ▸ run₁, run₂, alike⟩

end Own

section Foreign

variable {t : Schema} (separates : d.Separates s t) (created : d.Created)

include separates created

/-- A row under one prefix is not under the other. -/
theorem Definition.Separates.not_sees {row : Record} (foreign : d.sees t row = true) :
    d.sees s row = false := by
  obtain ⟨name, key, x, y, fixed, fixed', differ⟩ := separates
  rw [Bool.eq_false_iff]
  intro own
  exact differ ((Definition.measure_of_sees own (created.sound.declared name key) fixed).symm.trans
    (Definition.measure_of_sees foreign (created.sound.declared name key) fixed'))

/-- A row that is inserted under one prefix is not under the other, and no row there has its key. -/
theorem Definition.Separates.not_replaced (plain : d.Unnumbers t) (number : Int)
    (columns : List String) (others : List Cell) :
    let new := d.newRow (columnNames t.prefixSpecs ++ columns) (t.prefixCells ++ others) number
    d.sees s new = false ∧ ∀ old, d.sees s old = true → d.sameKey old new = false := by
  intro new
  obtain ⟨name, key, x, y, fixed, fixed', differ⟩ := separates
  have known := created.sound.declared name key
  have free : d.isNumber name = false := by
    obtain ⟨entry, member, own, -⟩ := t.entry_of_fixed? fixed'
    rw [← d.isNumber_congr own]
    exact plain _ (List.mem_map_of_mem (f := fun spec : ColumnSpec => spec.name.text)
      (t.parameterSpecs_subset .selectKeyAndId ⟨entry.column, entry.value.kind⟩
        (List.mem_map_of_mem (f := fun e : PrefixColumn => (⟨e.column, e.value.kind⟩ : ColumnSpec))
          member)))
  have stored : d.cell new name = d.convert name (Cell.ofValue y) :=
    Definition.cell_cellsOf fixed' known free number columns others
  refine ⟨?_, fun old own => ?_⟩
  · rw [Bool.eq_false_iff]
    intro own
    exact differ ((Definition.measure_of_sees own known fixed).symm.trans (congrArg _ stored))
  · rw [Bool.eq_false_iff]
    intro keysAgree
    have cells := Cell.measure_of_sameAs (List.all_eq_true.mp keysAgree name key)
    exact differ ((Definition.measure_of_sees own known fixed).symm.trans
      (cells.trans (congrArg _ stored)))

/-- A statement of another repository leaves the rows under the prefix as they are. -/
theorem Relation.run_foreign (plain : d.Unnumbers t) {kind : StatementKind} {others : List Cell}
    {rows : List Record} {answer : Answer} {r' : Relation}
    (run : Relation.run ⟨d, rows⟩ (t.sql kind) (t.prefixCells ++ others) = .ok (answer, r')) :
    r'.definition = d ∧ r'.rows.filter (d.sees s) = rows.filter (d.sees s) := by
  have names := plain.names created kind
  rcases t.sql_cases kind with ⟨columns, sql⟩ | ⟨columns, more, live, sql⟩ | ⟨more, live, sql⟩
  · rw [sql] at run names
    obtain ⟨number, given, -, rfl⟩ := Relation.run_upsert run
    obtain rfl : Relation.nextNumber ⟨d, rows⟩ = number :=
      Option.some.inj ((Relation.numberFor?_plain names _).symm.trans given)
    let new := d.newRow (columnNames t.prefixSpecs ++ columns) (t.prefixCells ++ others)
      (Relation.nextNumber ⟨d, rows⟩)
    obtain ⟨absent, kept⟩ : d.sees s new = false ∧ ∀ old, d.sees s old = true →
        d.sameKey old new = false := separates.not_replaced created plain _ columns others
    have stays : (rows.filter (d.sees s)).filter (fun old => !d.replaces new old) =
        rows.filter (d.sees s) := by
      refine List.filter_eq_self.mpr fun old member => ?_
      obtain ⟨present, own⟩ := List.mem_filter.mp member
      rw [show d.replaces new old = d.sameKey old new from
        Relation.replaces_next (r := ⟨d, rows⟩) d present _, kept old own]
      rfl
    have unseen : [new].filter (d.sees s) = [] := by
      rw [List.filter_cons_of_neg (by rw [absent]; exact Bool.false_ne_true)]
      rfl
    refine ⟨rfl, ?_⟩
    show (rows.filter (fun old => !d.replaces new old) ++ [new]).filter (d.sees s) = _
    rw [List.filter_append, List.filter_comm, stays, unseen, List.append_nil]
  · rw [sql] at run
    cases run
    exact ⟨rfl, rfl⟩
  · rw [sql] at run
    cases run
    refine ⟨rfl, ?_⟩
    show List.filter (d.sees s) (List.filter _ rows) = _
    rw [List.filter_comm, List.filter_eq_self.mpr]
    intro old member
    rw [Bool.not_eq_true', Bool.eq_false_iff]
    intro admitted
    have foreign := separates.not_sees created (Guard.sees_of_admits admitted)
    rw [(List.mem_filter.mp member).2] at foreign
    cases foreign

end Foreign

/-! ### Databases -/

/-- A database as a repository sees it: the definition of its table and the cells of the rows under
its prefix. -/
def Database.viewOf (db : Database) (s : Schema) : Option (Definition × List Cells) :=
  (db.relation? s.settings.table.name.text).map fun r =>
    (r.definition, (r.rows.filter (r.definition.sees s)).map Record.cells)

section Views

variable {db : Database} {b : Bound} {now : Nat} {kind : StatementKind} {rest : List Value}

theorem Database.viewOf_eq_some_iff {seen : List Cells} : db.viewOf s = some (d, seen) ↔
    ∃ rows, db.relation? s.settings.table.name.text = some ⟨d, rows⟩ ∧
      (rows.filter (d.sees s)).map Record.cells = seen := by
  rw [Database.viewOf, Option.map_eq_some_iff]
  constructor
  · rintro ⟨⟨d', rows⟩, found, pictureEq⟩
    obtain ⟨rfl, rfl⟩ := Prod.mk.inj pictureEq
    exact ⟨rows, found, rfl⟩
  · rintro ⟨rows, found, rfl⟩
    exact ⟨_, found, rfl⟩

/-- What is put in the place of a table is seen there. -/
theorem Database.viewOf_replace {rows : List Record}
    (found : db.relation? s.settings.table.name.text = some ⟨d, rows⟩) (rows' : List Record) :
    (db.replace s.settings.table.name.text ⟨d, rows'⟩).viewOf s =
      some (d, (rows'.filter (d.sees s)).map Record.cells) := by
  have own : sameName d.name s.settings.table.name.text = true := Database.relation?_name found
  rw [Database.viewOf_eq_some_iff]
  refine ⟨rows', ?_, rfl⟩
  rw [Database.relation?_replace own, found, Option.map_some, if_pos own]

/-- The parameters of a statement that binds the prefix values first. -/
theorem parameters_prefix (values : b.values = s.prefixValues ++ rest) (now : Nat) :
    ∃ others, parameters b now = s.prefixCells ++ others := by
  rw [parameters, values, List.map_append, List.append_assoc]
  exact ⟨_, rfl⟩

/-- A repository's own statement has the same outcome on two databases that it sees alike, and
leaves them so. -/
theorem Database.run_own {db₁ db₂ : Database} {seen : List Cells} (created : d.Created)
    (plain : d.Unnumbers s) (view₁ : db₁.viewOf s = some (d, seen))
    (view₂ : db₂.viewOf s = some (d, seen))
    (values : b.values = s.prefixValues ++ rest) (kind : StatementKind) (now : Nat) :
    (∃ e, db₁.run (s.sql kind) (parameters b now) = .error e ∧
      db₂.run (s.sql kind) (parameters b now) = .error e) ∨
    ∃ answer db₁' db₂' seen', db₁.run (s.sql kind) (parameters b now) = .ok (answer, db₁') ∧
      db₂.run (s.sql kind) (parameters b now) = .ok (answer, db₂') ∧
      db₁'.viewOf s = some (d, seen') ∧ db₂'.viewOf s = some (d, seen') := by
  obtain ⟨others, bound⟩ := parameters_prefix values now
  obtain ⟨rows₁, found₁, seen₁⟩ := Database.viewOf_eq_some_iff.mp view₁
  obtain ⟨rows₂, found₂, seen₂⟩ := Database.viewOf_eq_some_iff.mp view₂
  rw [bound]
  simp only [Database.run, s.sql_table, found₁, found₂]
  cases d.unknown? (s.sql kind) with
  | some column => exact .inl ⟨_, rfl, rfl⟩
  | none =>
    by_cases count : (s.prefixCells ++ others).length = (s.sql kind).parameters
    · simp only [if_pos count]
      rcases Relation.run_own (seen₁.trans seen₂.symm) created plain kind others with
        ⟨e, run₁, run₂⟩ | ⟨answer, rows₁', rows₂', run₁, run₂, after⟩
      · simp only [run₁, run₂]
        exact .inl ⟨_, rfl, rfl⟩
      · simp only [run₁, run₂]
        refine .inr ⟨_, _, _, (rows₂'.filter (d.sees s)).map Record.cells, rfl, rfl, ?_, ?_⟩
        · rw [Database.viewOf_replace found₁, after]
        · rw [Database.viewOf_replace found₂]
    · simp only [if_neg count]
      exact .inl ⟨_, rfl, rfl⟩

/-- A statement of another repository of the table is not seen. -/
theorem Database.run_foreign {t : Schema} (table : t.settings.table = s.settings.table)
    (created : d.Created) (plain : d.Unnumbers t) {seen : List Cells}
    (view : db.viewOf s = some (d, seen)) (separates : d.Separates s t)
    (values : b.values = t.prefixValues ++ rest) {answer : Answer} {db' : Database}
    (run : db.run (t.sql kind) (parameters b now) = .ok (answer, db')) :
    db'.viewOf s = some (d, seen) := by
  obtain ⟨others, bound⟩ := parameters_prefix values now
  obtain ⟨rows, found, rfl⟩ := Database.viewOf_eq_some_iff.mp view
  rw [bound] at run
  simp only [Database.run, t.sql_table, table, found] at run
  split at run
  · cases run
  · rename_i known
    split at run
    · split at run
      · rename_i answer' r' ran
        cases run
        obtain ⟨d', rows'⟩ := r'
        obtain ⟨rfl, kept⟩ := Relation.run_foreign separates created plain ran
        rw [Database.viewOf_replace found, ← kept]
      · cases run
    · cases run

end Views

end Sqlite

end GroupStore
