import GroupStore.Proofs.Contents
import GroupStore.Sqlite.Session

/-!
# Rows of a database as versions

A row of a table that was created for a schema holds the key, the exchange id, the payload and the
moment of expiry, in this order.  Columns are found by name without regard to case, so the names
must differ beyond it, as they do once the table has been created.

* `Sqlite.rowCells` — the row of a key and a version;
* `Definition.Sound` and `Sqlite.cell_of_mem` — each column has its own cell;
* `Sqlite.matches_eq` — comparing columns with bound values is comparing values;
* `Sqlite.isLive_rowCells` — a row lives iff its version does;
* `Sqlite.cellsOf_values` — the cells that an insert writes.
-/

namespace GroupStore

/-- The table definition of a schema. -/
def Schema.definition (s : Schema) : Sqlite.Definition := .ofLayout s.layout

namespace Sqlite

/-- The names of some columns. -/
def columnNames (specs : List ColumnSpec) : List String := specs.map fun spec => spec.name.text

/-! ### Names without case -/

theorem sameName_iff {a b : String} : sameName a b = true ↔ caseless a = caseless b := by
  rw [sameName, beq_iff_eq]

theorem sameName_self (a : String) : sameName a a = true := sameName_iff.mpr rfl

theorem sameName_trans {a b c : String} (h : sameName a b = true) :
    sameName a c = sameName b c := by
  rw [Bool.eq_iff_iff, sameName_iff, sameName_iff, sameName_iff.mp h]

theorem sameName_comm (a b : String) : sameName a b = sameName b a := by
  rw [Bool.eq_iff_iff, sameName_iff, sameName_iff]
  exact eq_comm

/-- Among things whose names differ beyond case, each is found under its name. -/
theorem find?_sameName {α : Type} {f : α → String} {xs : List α}
    (distinct : (xs.map fun x => caseless (f x)).Nodup) {x : α} (found : x ∈ xs) :
    xs.find? (fun y => sameName (f y) (f x)) = some x := by
  induction xs with
  | nil => simp at found
  | cons first rest ih =>
    rw [List.map_cons, List.nodup_cons] at distinct
    rcases List.mem_cons.mp found with rfl | later
    · exact List.find?_cons_of_pos (p := fun y => sameName (f y) (f x)) (sameName_self _)
    · have other : ¬sameName (f first) (f x) = true := by
        rw [sameName_iff]
        intro caselessEq
        exact distinct.1 (caselessEq ▸ List.mem_map_of_mem (f := fun x => caseless (f x)) later)
      rw [List.find?_cons_of_neg (p := fun y => sameName (f y) (f x)) other]
      exact ih distinct.2 later

/-- The names of the columns of a table differ beyond case. -/
def Definition.Distinct (d : Definition) : Prop :=
  (d.columns.map fun column => caseless column.name).Nodup

theorem duplicateColumn?_eq_none_iff (seen : List String) (columns : List Column) :
    duplicateColumn? seen columns = none ↔
      (columns.map fun column => caseless column.name).Nodup ∧
        ∀ column ∈ columns, caseless column.name ∉ seen := by
  induction columns generalizing seen with
  | nil => simp [duplicateColumn?]
  | cons column rest ih =>
    rw [duplicateColumn?]
    by_cases repeated : caseless column.name ∈ seen
    · simp [repeated]
    · rw [if_neg (by simpa using repeated), ih, List.map_cons, List.nodup_cons]
      constructor
      · rintro ⟨distinct, fresh⟩
        refine ⟨⟨fun later => ?_, distinct⟩, fun c found => ?_⟩
        · obtain ⟨c, inside, caselessEq⟩ := List.mem_map.mp later
          exact fresh c inside (caselessEq ▸ List.mem_cons_self)
        · rcases List.mem_cons.mp found with rfl | inside
          · exact repeated
          · exact fun old => fresh c inside (List.mem_cons_of_mem _ old)
      · rintro ⟨⟨first, distinct⟩, fresh⟩
        refine ⟨distinct, fun c inside old => ?_⟩
        rcases List.mem_cons.mp old with caselessEq | seenBefore
        · exact first (caselessEq ▸ List.mem_map_of_mem (f := fun c => caseless c.name) inside)
        · exact fresh c (List.mem_cons_of_mem _ inside) seenBefore

/-- A definition under which a table can be created. -/
structure Definition.Sound (d : Definition) : Prop where
  distinct : d.Distinct
  few : d.columns.length ≤ maxColumns
  keyed : d.key ≠ []
  /-- The names of the key are names of columns. -/
  declared : ∀ name ∈ d.key, d.hasColumn name = true

theorem Definition.fault?_eq_none_iff (d : Definition) : d.fault? = none ↔ d.Sound := by
  have distinct (few : d.columns.length ≤ maxColumns) :
      duplicateColumn? [] (d.columns.take maxColumns) = none ↔ d.Distinct := by
    rw [List.take_of_length_le few, duplicateColumn?_eq_none_iff]
    exact and_iff_left fun _ _ => List.not_mem_nil
  unfold Definition.fault?
  constructor
  · intro faultless
    split at faultless
    · cases faultless
    · rename_i apart
      split at faultless
      · cases faultless
      · rename_i few
        have few := Nat.le_of_not_lt few
        split at faultless
        · cases faultless
        · rename_i keyed
          split at faultless
          · rename_i declared
            exact ⟨(distinct few).mp apart, few, keyed, List.all_eq_true.mp declared⟩
          · cases faultless
  · intro sound
    simp only [(distinct sound.few).mpr sound.distinct, if_neg (Nat.not_lt.mpr sound.few),
      if_neg sound.keyed, if_pos (List.all_eq_true.mpr sound.declared)]

/-- A column that holds the number of the row holds integers, and is the key. -/
theorem affinity_of_isNumberColumn {d : Definition} {column : Column}
    (number : d.isNumberColumn column = true) :
    column.affinity = .integer ∧ ∃ name, d.key = [name] ∧ sameName name column.name = true := by
  unfold Definition.isNumberColumn at number
  split at number
  · rename_i name key
    rw [Bool.and_eq_true, decide_eq_true_iff] at number
    exact ⟨number.2, name, key, number.1⟩
  · cases number

theorem hasColumn_of_mem {d : Definition} {column : Column} (found : column ∈ d.columns) :
    d.hasColumn column.name = true := by
  rw [Definition.hasColumn, Definition.column?, List.find?_isSome]
  exact ⟨column, found, sameName_self _⟩

section Columns

variable {d : Definition} (distinct : d.Distinct)

include distinct

theorem column?_of_mem {column : Column} (found : column ∈ d.columns) :
    d.column? column.name = some column :=
  find?_sameName (f := Column.name) distinct found

/-- The name of a column stands for the number of a row iff the column holds it. -/
theorem isNumber_of_mem {column : Column} (found : column ∈ d.columns) :
    d.isNumber column.name = d.isNumberColumn column := by
  rw [Definition.isNumber, column?_of_mem distinct found]

theorem cell_of_mem (column : Column) {row : Record}
    (lengthEq : d.columns.length = row.cells.length)
    {c : Cell} (found : (column, c) ∈ d.columns.zip row.cells)
    (plain : d.isNumberColumn column = false) : d.cell row column.name = c := by
  have names : ((d.columns.zip row.cells).map fun entry => caseless entry.1.name).Nodup := by
    have columns := congrArg (List.map fun column : Column => caseless column.name)
      (List.map_fst_zip (Nat.le_of_eq lengthEq))
    rw [List.map_map] at columns
    rw [show (fun entry : Column × Cell => caseless entry.1.name) =
      (fun column : Column => caseless column.name) ∘ Prod.fst from rfl, columns]
    exact distinct
  have hit := find?_sameName (f := fun entry : Column × Cell => entry.1.name) names found
  have inside := (List.of_mem_zip found).1
  rw [Definition.cell, isNumber_of_mem distinct inside, plain, if_neg Bool.false_ne_true,
    if_pos (hasColumn_of_mem inside), hit]
  rfl

end Columns

/-! ### Cells of values -/

theorem ofValue_injective {a b : Value} (h : Cell.ofValue a = Cell.ofValue b) : a = b := by
  cases a with
  | text s => cases b <;> cases h; rfl
  | blob bytes => cases b <;> cases h; rfl
  | boolean x =>
    cases b with
    | boolean y => cases x <;> cases y <;> first | rfl | cases h
    | text t => cases h
    | blob bytes => cases h

/-- Cells without floating point numbers are compared as they are. -/
theorem measure_ofValue_inj {a b : Value} :
    (Cell.ofValue a).measure = (Cell.ofValue b).measure ↔ a = b := by
  refine ⟨fun measureEq => ofValue_injective ?_, fun equal => by rw [equal]⟩
  cases a with
  | text s => cases b <;> first | exact measureEq | cases measureEq
  | blob bytes => cases b <;> first | exact measureEq | cases measureEq
  | boolean x =>
    cases b with
    | boolean y => exact congrArg Cell.integer (Rat.intCast_inj.mp (Cell.real.inj measureEq))
    | text t => cases measureEq
    | blob bytes => cases measureEq

theorem sameAs_ofValue (a b : Value) :
    (Cell.ofValue a).sameAs (Cell.ofValue b) = decide (a = b) := by
  have present : Cell.ofValue a ≠ .null := by cases a <;> simp [Cell.ofValue]
  simp [Cell.sameAs, present, measure_ofValue_inj]

theorem toValue?_ofValue (v : Value) : (Cell.ofValue v).toValue? v.kind = some v := by
  cases v with
  | text s => rfl
  | blob bytes => rfl
  | boolean b => cases b <;> rfl

/-- A value of a column's kind is stored as it is. -/
theorem convert_ofValue (v : Value) :
    (Affinity.ofKind v.kind).convert (Cell.ofValue v) = Cell.ofValue v := by
  cases v <;> rfl

/-! ### Rows of a schema -/

/-- The cell of a moment of expiry. -/
def momentCell : Option Nat → Cell
  | none => .null
  | some moment => .integer moment

/-- The stored values of a key and a version. -/
def storedValues (key : List Value) (v : Version) : List Value :=
  key ++ [.text v.id, .blob v.payload]

/-- The row of a key and a version. -/
def rowCells (key : List Value) (v : Version) : Cells :=
  (storedValues key v).map Cell.ofValue ++ [momentCell v.expiresAt]

/-- The declared column of a column of a layout. -/
def columnOf (spec : ColumnSpec) : Column := ⟨spec.name.text, Affinity.ofKind spec.kind, true⟩

/-- The hidden column. -/
def hidden : Column := ⟨expiryColumn, .integer, false⟩

/-- A function gives the second list if it takes each entry of the first to its partner. -/
theorem map_eq_of_zip {β γ : Type} {f : β → γ} {xs : List β} {ys : List γ}
    (lengthEq : xs.length = ys.length) (each : ∀ p ∈ xs.zip ys, f p.1 = p.2) : xs.map f = ys := by
  calc xs.map f
      = ((xs.zip ys).map Prod.fst).map f := by rw [List.map_fst_zip (Nat.le_of_eq lengthEq)]
    _ = (xs.zip ys).map Prod.snd := by
        rw [List.map_map]
        exact List.map_congr_left each
    _ = ys := List.map_snd_zip (Nat.le_of_eq lengthEq.symm)

/-! ### Columns of a layout -/

section Columns

variable {l : Layout} {spec : ColumnSpec} (found : spec ∈ l.columns)

include found

theorem columnOf_mem : columnOf spec ∈ (Definition.ofLayout l).columns :=
  List.mem_append_left _ (List.mem_map_of_mem found)

theorem hasColumn_column : (Definition.ofLayout l).hasColumn spec.name.text = true :=
  hasColumn_of_mem (columnOf_mem found)

/-- A value of a column's kind is compared as it is. -/
theorem convert_column (distinct : (Definition.ofLayout l).Distinct) {value : Value}
    (kind : value.kind = spec.kind) :
    (Definition.ofLayout l).convert spec.name.text (Cell.ofValue value) = Cell.ofValue value := by
  have hit : (Definition.ofLayout l).column? spec.name.text = some (columnOf spec) :=
    column?_of_mem distinct (columnOf_mem found)
  have converted := convert_ofValue value
  rw [kind] at converted
  rw [Definition.convert, hit]
  split
  · -- A column that holds the number converts as one of integers does.
    rename_i number
    rw [Definition.isNumber, hit] at number
    have integers : Affinity.ofKind spec.kind = .integer := (affinity_of_isNumberColumn number).1
    rw [← integers]
    exact converted
  · exact converted

end Columns

/-- The key of a layout consists of columns. -/
theorem declared_ofLayout (l : Layout) :
    ∀ name ∈ (Definition.ofLayout l).key, (Definition.ofLayout l).hasColumn name = true := by
  intro name member
  obtain ⟨spec, found, rfl⟩ := List.mem_map.mp member
  exact hasColumn_column (List.mem_append_left _ found)

/-- The hidden column does not hold the number of the row: it is not in the key. -/
theorem isNumber_expiry {l : Layout} (distinct : (Definition.ofLayout l).Distinct) :
    (Definition.ofLayout l).isNumber expiryColumn = false := by
  have last : hidden ∈ (Definition.ofLayout l).columns :=
    List.mem_append_right _ (List.mem_singleton.mpr rfl)
  rw [show expiryColumn = hidden.name from rfl, isNumber_of_mem distinct last]
  refine Bool.eq_false_iff.mpr fun number => ?_
  obtain ⟨-, name, key, namesAgree⟩ := affinity_of_isNumberColumn number
  have member : name ∈ (Definition.ofLayout l).key := by rw [key]; exact List.mem_singleton.mpr rfl
  obtain ⟨spec, found, rfl⟩ := List.mem_map.mp member
  have apart :
      (l.columns.map columnOf ++ [hidden]).map (fun column => caseless column.name) |>.Nodup :=
    distinct
  rw [List.map_append, List.nodup_append] at apart
  refine apart.2.2 _ (List.mem_map_of_mem (List.mem_map_of_mem (List.mem_append_left _ found))) _
    (List.mem_singleton.mpr rfl) ?_
  exact sameName_iff.mp namesAgree

/-- The definition of a table that a session has created for a layout. -/
structure Definition.Created (d : Definition) : Prop where
  layout : ∃ l, d = .ofLayout l
  sound : d.Sound

theorem Definition.Created.isNumber_expiry {d : Definition} (created : d.Created) :
    d.isNumber expiryColumn = false := by
  obtain ⟨⟨l, rfl⟩, sound⟩ := created
  exact Sqlite.isNumber_expiry sound.distinct

section Rows

variable (s : Schema)

theorem definition_columns :
    s.definition.columns = s.layout.columns.map columnOf ++ [hidden] := rfl

variable {s} {key : List Value} (fits : s.FitsKey key) (v : Version)

include fits

theorem storedValues_kinds :
    (storedValues key v).map Value.kind = s.layout.columns.map ColumnSpec.kind := by
  rw [storedValues, List.map_append, fits, Layout.columns, List.map_append]
  rfl

theorem storedValues_length : s.layout.columns.length = (storedValues key v).length := by
  simpa using (congrArg List.length (storedValues_kinds fits v)).symm

/-- The columns of a layout beside the values that they store. -/
theorem zip_storedValues : s.layout.columns.zip (storedValues key v) =
    s.layout.primaryKey.zip key ++ [(⟨s.exchangeIdColumn, .text⟩, .text v.id),
      (⟨s.payloadColumn, .blob⟩, .blob v.payload)] := by
  rw [Layout.columns, storedValues, List.zip_append fits.length.symm]
  rfl

theorem mem_stored_of_mem_key :
    ∀ p ∈ s.layout.primaryKey.zip key, p ∈ s.layout.columns.zip (storedValues key v) := by
  intro p member
  rw [zip_storedValues fits v]
  exact List.mem_append_left _ member

theorem columns_zip_rowCells : s.definition.columns.zip (rowCells key v) =
    (s.layout.columns.zip (storedValues key v)).map (Prod.map columnOf Cell.ofValue) ++
      [(hidden, momentCell v.expiresAt)] := by
  rw [definition_columns, rowCells, List.zip_append (by simpa using storedValues_length fits v),
    List.zip_map]
  rfl

theorem rowCells_length : s.definition.columns.length = (rowCells key v).length := by
  simp [definition_columns, rowCells, storedValues_length fits v]

omit fits in
/-- The key of a schema has a text column, so that no column holds the number of the row. -/
theorem isNumberColumn_eq_false (distinct : s.definition.Distinct) {column : Column}
    (found : column ∈ s.definition.columns) : s.definition.isNumberColumn column = false := by
  refine Bool.eq_false_iff.mpr fun number => ?_
  obtain ⟨integers, name, key, namesAgree⟩ := affinity_of_isNumberColumn number
  have names : s.definition.key = s.layout.primaryKey.map fun spec => spec.name.text := rfl
  rw [names, s.layout_primaryKey, List.map_append] at key
  have only : name = s.keyColumn.text := by
    have last := congrArg List.getLast? key
    simpa using last.symm
  -- The key column itself is a text column, and no other has its name.
  let own : ColumnSpec := ⟨s.keyColumn, .text⟩
  have inside : own ∈ s.layout.columns :=
    List.mem_append_left _ (by rw [s.layout_primaryKey]; simp [own])
  have hit := column?_of_mem distinct (columnOf_mem inside)
  have other := column?_of_mem distinct found
  rw [Definition.column?] at hit other
  have reads : (fun c : Column => sameName c.name column.name) =
      fun c => sameName c.name (columnOf own).name := by
    funext c
    rw [only] at namesAgree
    rw [Bool.eq_iff_iff, sameName_iff, sameName_iff, ← sameName_iff.mp namesAgree]
    rfl
  rw [reads, hit] at other
  rw [← Option.some.inj other] at integers
  cases integers

section Stored

variable {row : Record} (stored : row.cells = rowCells key v) (distinct : s.definition.Distinct)

include stored distinct

/-- The cell of a column is the one stored for it. -/
theorem cell_stored (column : Column) {c : Cell}
    (found : (column, c) ∈ s.definition.columns.zip (rowCells key v)) :
    s.definition.cell row column.name = c := by
  rw [← stored] at found
  exact cell_of_mem distinct column (stored ▸ rowCells_length fits v) found
    (isNumberColumn_eq_false distinct (List.of_mem_zip found).1)

/-- The cell of a column is that of its value. -/
theorem cell_rowCells {spec : ColumnSpec} {value : Value}
    (found : (spec, value) ∈ s.layout.columns.zip (storedValues key v)) :
    s.definition.cell row spec.name.text = Cell.ofValue value := by
  refine cell_stored fits v stored distinct (columnOf spec) ?_
  rw [columns_zip_rowCells fits v]
  exact List.mem_append_left _ (List.mem_map_of_mem (f := Prod.map columnOf Cell.ofValue) found)

/-- The cells of some columns are those of their values. -/
theorem cells_rowCells {specs : List ColumnSpec} {values : List Value}
    (lengthEq : specs.length = values.length)
    (known : ∀ p ∈ specs.zip values, p ∈ s.layout.columns.zip (storedValues key v)) :
    (columnNames specs).map (s.definition.cell row) = values.map Cell.ofValue := by
  induction specs generalizing values with
  | nil => rw [List.length_eq_zero_iff.mp lengthEq.symm]; rfl
  | cons spec rest ih =>
    cases values with
    | nil => simp at lengthEq
    | cons value others =>
      have first := cell_rowCells fits v stored distinct (known (spec, value) List.mem_cons_self)
      have later := @ih others (by simpa using lengthEq)
        (fun p member => known p (List.mem_cons_of_mem _ member))
      rw [columnNames, List.map_cons, List.map_cons, first, List.map_cons]
      exact congrArg _ later

theorem cell_expiry : s.definition.cell row expiryColumn = momentCell v.expiresAt := by
  refine cell_stored fits v stored distinct hidden ?_
  rw [columns_zip_rowCells fits v]
  exact List.mem_append_right _ (List.mem_singleton.mpr rfl)

/-- Comparing columns of a row with bound values is comparing the stored values with them. -/
theorem matches_eq {specs : List ColumnSpec} {values bound : List Value} (extra : List Cell)
    (known : ∀ p ∈ specs.zip values, p ∈ s.layout.columns.zip (storedValues key v))
    (lengthEq : specs.length = values.length)
    (kinds : bound.map Value.kind = specs.map ColumnSpec.kind) :
    s.definition.matches row (columnNames specs)
      (bound.map Cell.ofValue ++ extra) = decide (values = bound) := by
  induction specs generalizing values bound with
  | nil =>
    have values : values = [] := List.length_eq_zero_iff.mp lengthEq.symm
    have bound : bound = [] := List.map_eq_nil_iff.mp kinds
    simp [values, bound, columnNames, Definition.matches]
  | cons spec rest ih =>
    cases values with
    | nil => simp at lengthEq
    | cons a others =>
      obtain ⟨b, bs, rfl, kind, kindsRest⟩ := List.map_eq_cons_iff.mp kinds
      have first := known (spec, a) List.mem_cons_self
      have converted : s.definition.convert spec.name.text (Cell.ofValue b) = Cell.ofValue b :=
        convert_column (List.of_mem_zip first).1 distinct kind
      have later := @ih others bs
        (fun p member => known p (List.mem_cons_of_mem _ member)) (by simpa using lengthEq)
        kindsRest
      rw [columnNames] at later
      rw [columnNames, List.map_cons, List.map_cons, List.cons_append, Definition.matches,
        cell_rowCells fits v stored distinct first, converted, sameAs_ofValue, later]
      by_cases values : a = b <;> simp [values]

/-- A row lives iff its version does, if its moment can be an integer of a cell. -/
theorem isLive_rowCells (bounded : ∀ moment, v.expiresAt = some moment →
    (moment : Int) ≤ maxInteger)
    (now : Nat) : s.definition.isLive row (reading now) = v.liveAt now := by
  rw [Definition.isLive, cell_expiry fits v stored distinct, Version.liveAt]
  cases moment : v.expiresAt with
  | none => rfl
  | some limit =>
    have top := bounded limit moment
    rw [Bool.eq_iff_iff]
    show decide (min (now : Int) maxInteger < (limit : Int)) = true ↔ decide (now < limit) = true
    rw [decide_eq_true_iff, decide_eq_true_iff]
    omega

/-- Two rows have the same key iff they are stored under the same key. -/
theorem sameKey_rowCells {key' : List Value} (fits' : s.FitsKey key') (v' : Version)
    {row' : Record} (stored' : row'.cells = rowCells key' v') :
    s.definition.sameKey row row' = decide (key = key') := by
  have general : ∀ (specs : List ColumnSpec) (as bs : List Value),
      specs.length = as.length → specs.length = bs.length →
      (∀ p ∈ specs.zip as, p ∈ s.layout.columns.zip (storedValues key v)) →
      (∀ p ∈ specs.zip bs, p ∈ s.layout.columns.zip (storedValues key' v')) →
      (specs.all fun spec => (s.definition.cell row spec.name.text).sameAs
        (s.definition.cell row' spec.name.text)) = decide (as = bs) := by
    intro specs
    induction specs with
    | nil =>
      intro as bs sameA sameB _ _
      rw [List.length_eq_zero_iff.mp sameA.symm, List.length_eq_zero_iff.mp sameB.symm]
      rfl
    | cons spec rest ih =>
      intro as bs sameA sameB inA inB
      cases as with
      | nil => simp at sameA
      | cons a as =>
        cases bs with
        | nil => simp at sameB
        | cons b bs =>
          rw [List.all_cons,
            cell_rowCells fits v stored distinct (inA (spec, a) List.mem_cons_self),
            cell_rowCells fits' v' stored' distinct (inB (spec, b) List.mem_cons_self),
            sameAs_ofValue, ih as bs (by simpa using sameA) (by simpa using sameB)
              (fun p member => inA p (List.mem_cons_of_mem _ member))
              (fun p member => inB p (List.mem_cons_of_mem _ member))]
          by_cases values : a = b <;> simp [values]
  have names : s.definition.key = s.layout.primaryKey.map fun spec => spec.name.text := rfl
  rw [Definition.sameKey, names, List.all_map]
  exact general s.layout.primaryKey key key' fits.length.symm fits'.length.symm
    (mem_stored_of_mem_key fits v) (mem_stored_of_mem_key fits' v')

end Stored

omit fits in
/-- The columns of the table, as an insert names them. -/
theorem insert_names : s.columns.map Identifier.text ++ [expiryColumn] =
    s.definition.columns.map Column.name := by
  rw [definition_columns, ← s.layout_columns_names, List.map_append, List.map_map, List.map_map]
  rfl

/-- An insert writes the cells of what is bound. -/
theorem cellsOf_values (distinct : s.definition.Distinct) :
    s.definition.cellsOf (s.columns.map Identifier.text ++ [expiryColumn]) (rowCells key v) =
      rowCells key v := by
  have stays : ∀ p ∈ s.definition.columns.zip (rowCells key v),
      p.1.affinity.convert p.2 = p.2 := by
    intro p member
    rw [columns_zip_rowCells fits v] at member
    rcases List.mem_append.mp member with own | last
    · obtain ⟨⟨spec, value⟩, found, rfl⟩ := List.mem_map.mp own
      have kind : value.kind = spec.kind := kind_of_mem_zip (storedValues_kinds fits v) found
      have converted := convert_ofValue value
      rw [kind] at converted
      exact converted
    · rw [List.mem_singleton.mp last]
      cases v.expiresAt <;> rfl
  rw [Definition.cellsOf, insert_names]
  refine map_eq_of_zip (rowCells_length fits v) fun p member => ?_
  have found : (p.1.name, p.2) ∈ (s.definition.columns.map Column.name).zip (rowCells key v) := by
    rw [List.zip_map_left]
    exact List.mem_map_of_mem (f := Prod.map Column.name fun c => c) member
  have apart : (((s.definition.columns.map Column.name).zip (rowCells key v)).map
      fun entry => caseless entry.1).Nodup := by
    have columns := congrArg (List.map fun column : Column => caseless column.name)
      (List.map_fst_zip (Nat.le_of_eq (rowCells_length fits v)))
    rw [List.map_map] at columns
    rw [List.zip_map_left, List.map_map]
    exact columns ▸ distinct
  simp only [isNumberColumn_eq_false distinct (List.of_mem_zip member).1, Bool.false_eq_true,
    if_false, find?_sameName (f := fun entry : String × Cell => entry.1) apart found]
  exact stays p member

omit fits in
/-- An insert of a schema leaves the number of its row to the table. -/
theorem assignedNumber?_values (distinct : s.definition.Distinct) (parameters : List Cell) :
    s.definition.assignedNumber? (s.columns.map Identifier.text ++ [expiryColumn]) parameters =
      none := by
  have others : (((s.columns.map Identifier.text ++ [expiryColumn]).zip parameters).filter
      fun entry => s.definition.isNumber entry.1) = [] := by
    rw [List.filter_eq_nil_iff]
    intro entry member
    have named := (List.of_mem_zip (a := entry.1) (b := entry.2) member).1
    rw [insert_names] at named
    obtain ⟨column, found, name⟩ := List.mem_map.mp named
    rw [← name, isNumber_of_mem distinct found, isNumberColumn_eq_false distinct found]
    exact Bool.false_ne_true
  rw [Definition.assignedNumber?, others]
  rfl

/-- No required column of the row is left empty. -/
theorem missing?_rowCells : s.definition.missing? (rowCells key v) = none := by
  rw [Definition.missing?, columns_zip_rowCells fits v, Option.map_eq_none_iff,
    List.find?_eq_none]
  intro p member
  rcases List.mem_append.mp member with own | last
  · obtain ⟨⟨spec, value⟩, -, rfl⟩ := List.mem_map.mp own
    cases value <;> simp [Cell.ofValue]
  · rw [List.mem_singleton.mp last]
    simp [hidden]

end Rows

/-! ### Reading rows back -/

/-- Cells of values of the columns' kinds are read as these values. -/
theorem readCells_ofValue {l : Layout} {names : List Identifier} {values : List Value}
    (lengthEq : names.length = values.length)
    (known : ∀ p ∈ names.zip values, ∃ spec, l.column? p.1 = some spec ∧ spec.kind = p.2.kind) :
    readCells l names (values.map Cell.ofValue) = .ok ((names.map Identifier.text).zip values) := by
  induction names generalizing values with
  | nil => rfl
  | cons name rest ih =>
    cases values with
    | nil => simp at lengthEq
    | cons value others =>
      obtain ⟨spec, found, kind⟩ := known (name, value) List.mem_cons_self
      have later := @ih others (by simpa using lengthEq)
        (fun p member => known p (List.mem_cons_of_mem _ member))
      have cell : readCell l name (Cell.ofValue value) = .ok (name.text, value) := by
        have back := toValue?_ofValue value
        rw [← kind] at back
        simp only [readCell, found, back]
      simp only [List.map_cons, readCells, cell, later, bind, Except.bind, pure, Except.pure,
        List.zip_cons_cons]

theorem readRows_map {l : Layout} {projection : List Identifier} {ε : Type} {f : ε → Cells}
    {g : ε → List (String × Value)} {entries : List ε}
    (each : ∀ e ∈ entries, readCells l projection (f e) = .ok (g e)) :
    readRows l projection (entries.map f) = .ok (entries.map fun e => Row.ofCells (g e)) := by
  induction entries with
  | nil => rfl
  | cons e rest ih =>
    simp only [List.map_cons, readRows, each e List.mem_cons_self,
      ih fun e member => each e (List.mem_cons_of_mem _ member), bind, Except.bind, pure,
      Except.pure]

end Sqlite

end GroupStore
