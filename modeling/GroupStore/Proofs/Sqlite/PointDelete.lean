import GroupStore.Proofs.Confinement
import GroupStore.Proofs.Sqlite.Origin

/-!
# Deletes of a single row

A session refuses a plain delete that compares nothing and a conditional one without a condition,
but it does not ask whether what is compared singles a row out, as the key of the table does or the
number of a row.  If it does, an execution takes away at most the one row with what is bound.
Otherwise any row that a delete takes can be copied under another key, and the delete takes both.

* `File.removed` — the rows that an execution takes away, `removed_eq` which they are;
* `Definition.SinglesOut` — the key or the number of a row is compared;
* `Relation.Keyed.length_picked` — then at most one row is picked;
* `Definition.copied`, `exists_two_removed` — otherwise a row is taken together with its copy;
* `File.removes_one_iff_comparesKey` — which deletes are deletes of a single row.
-/

namespace GroupStore.Sqlite

/-! ### What is taken away -/

/-- The rows of its table that the execution of a statement takes away. -/
def File.removed (f : File) (now session : Nat) (b : Bound) : List Record :=
  let table := b.template.layout.table.name.text
  match f.database.relation? table, (f.execute now session b).2.database.relation? table with
  | some r, some r' => r.rows.filter fun row => row ∉ r'.rows
  | _, _ => []

/-- A delete by its kind. -/
def IsDelete (t : Template) : Prop := t.kind = .deleteByKey ∨ t.kind = .conditionalDelete

/-- A plain delete with a condition, which it has no parameter for. -/
def Surplus (t : Template) : Prop := t.kind = .deleteByKey ∧ t.condition ≠ none

variable {f f' : File} {now session : Nat} {b : Bound} {r : Relation} {d : Definition}
  {t : Template} {p : Prepared} {row : Record} {name : String}

/-- A delete takes away the rows that it picks; one with a surplus condition fails and takes away
none. -/
theorem File.removed_eq (now : Nat) (sound : f.Sound) (asks : f.Asks session b)
    (delete : IsDelete b.template)
    (found : f.database.relation? b.template.layout.table.name.text = some r) :
    Surplus b.template ∧ (∃ e, f.execute now session b = (.error e, f)) ∧
        f.removed now session b = [] ∨
      ¬Surplus b.template ∧ (∃ result, (f.execute now session b).1 = .ok result) ∧
        f.removed now session b = r.rows.filter (r.definition.picks b now) := by
  obtain ⟨sql, r', stands⟩ := sound.stands asks
  have table := translate_table stands.translated
  have own := stands.found
  rw [table, found] at own
  cases own
  by_cases surplus : Surplus b.template
  · obtain ⟨e, failed⟩ := stands.delete_condition now surplus.1 surplus.2
    refine .inl ⟨surplus, ⟨e, failed⟩, ?_⟩
    simp only [removed, failed, found]
    exact List.filter_eq_nil_iff.mpr fun row member => by simpa using member
  · have plain : b.template.kind = .deleteByKey ∧ b.template.condition = none ∨
        b.template.kind = .conditionalDelete :=
      delete.imp (fun kind => ⟨kind, not_not.mp fun more => surplus ⟨kind, more⟩⟩) id
    obtain ⟨result, executed, -⟩ := stands.delete now plain
    let kept := r.rows.filter fun row => !r.definition.picks b now row
    have after : (f.withRows sql.table r kept).database.relation?
        b.template.layout.table.name.text = some { r with rows := kept } :=
      relation?_withRows stands.found kept (by rw [table]; exact sameName_self _)
    refine .inr ⟨surplus, ⟨result, by rw [executed]⟩, ?_⟩
    simp only [removed, executed, found]
    rw [after]
    refine List.filter_congr fun row member => ?_
    cases picked : r.definition.picks b now row <;> simp [kept, member, picked]

/-! ### What singles a row out -/

/-- Whether every column of the key of a table is compared by a statement. -/
def Definition.ComparesKey (d : Definition) (t : Template) : Prop :=
  ∀ name ∈ d.key, ∃ column ∈ t.parameterColumns, sameName column.text name = true

/-- Whether the number of a row is compared by a statement. -/
def Definition.ComparesNumber (d : Definition) (t : Template) : Prop :=
  ∃ column ∈ t.parameterColumns, d.isNumber column.text = true

/-- Whether a statement compares what no two rows of a table share. -/
def Definition.SinglesOut (d : Definition) (t : Template) : Prop :=
  d.ComparesKey t ∨ d.ComparesNumber t

/-- The value bound to each column of the key is in that column of a row. -/
def Definition.HasBoundKey (d : Definition) (b : Bound) (row : Record) : Prop :=
  ∀ name ∈ d.key, ∃ p ∈ b.template.parameterColumns.zip b.values, sameName p.1.text name = true ∧
    (d.cell row name).sameAs (d.convert name (Cell.ofValue p.2)) = true

/-- What equals one cell is equal. -/
theorem Cell.sameAs_of_common {a b c : Cell} (first : a.sameAs c = true)
    (second : b.sameAs c = true) : a.sameAs b = true := by
  simp only [sameAs, Bool.and_eq_true, decide_eq_true_iff] at first second ⊢
  exact ⟨first.1, first.2.trans second.2.symm⟩

/-- A row that agrees with what is bound to the columns of the key has that key. -/
theorem Definition.Agrees.hasBoundKey (agrees : d.Agrees b row)
    (declared : ∀ name ∈ d.key, d.hasColumn name = true) (compares : d.ComparesKey b.template) :
    d.HasBoundKey b row := by
  intro name inKey
  obtain ⟨column, member, spelled⟩ := compares name inKey
  obtain ⟨value, paired⟩ := exists_mem_zip b.length_values member
  refine ⟨_, paired, spelled, ?_⟩
  rw [← Definition.cell_congr spelled (declared name inKey), ← Definition.convert_congr spelled]
  exact agrees _ paired

/-- Two rows that agree with what is bound have one number or one key, if that is compared. -/
theorem Definition.Agrees.replaces {old : Record} (agrees : d.Agrees b row)
    (agrees' : d.Agrees b old) (declared : ∀ name ∈ d.key, d.hasColumn name = true)
    (singles : d.SinglesOut b.template) : d.replaces row old = true := by
  rw [Definition.replaces, Bool.or_eq_true, decide_eq_true_iff]
  rcases singles with compares | ⟨column, member, number⟩
  · refine .inr (List.all_eq_true.mpr fun name inKey => ?_)
    obtain ⟨column, member, spelled⟩ := compares name inKey
    obtain ⟨value, paired⟩ := exists_mem_zip b.length_values member
    have both := Cell.sameAs_of_common (agrees' _ paired) (agrees _ paired)
    rwa [Definition.cell_congr spelled (declared name inKey),
      Definition.cell_congr spelled (declared name inKey)] at both
  · obtain ⟨value, paired⟩ := exists_mem_zip b.length_values member
    have both := Cell.sameAs_of_common (agrees' _ paired) (agrees _ paired)
    simp only [Definition.cell, number, if_true] at both
    refine .inl ?_
    simpa [Cell.sameAs, Cell.measure] using both

/-- At most one row of a table agrees with what is bound if that singles a row out. -/
theorem Relation.Keyed.length_picked (keyed : r.Keyed) (definable : r.definition.Sound)
    (singles : r.definition.SinglesOut b.template) :
    (r.rows.filter (r.definition.picks b now)).length ≤ 1 := by
  have apart : (r.rows.filter (r.definition.picks b now)).Pairwise
      fun old new => r.definition.replaces new old = false := keyed.filter _
  have agree : ∀ row ∈ r.rows.filter (r.definition.picks b now), r.definition.Agrees b row :=
    fun row member => ((r.definition.picks_iff b now row).mp (List.mem_filter.mp member).2).1
  match picked : r.rows.filter (r.definition.picks b now) with
  | [] | [_] => simp
  | x :: y :: rest =>
    rw [picked] at apart agree
    have differ := (List.pairwise_cons.mp apart).1 y List.mem_cons_self
    have replaces := (agree y (List.mem_cons_of_mem _ List.mem_cons_self)).replaces
      (agree x List.mem_cons_self) definable.declared singles
    rw [replaces] at differ
    cases differ

/-! ### A copy under another key -/

/-- A row with another number, and with a cell of its own in a column. -/
def Definition.copied (d : Definition) (row : Record) (name : String) (c : Cell) : Record where
  number := if row.number = 1 then 2 else 1
  cells := d.columns.map fun column =>
    if sameName column.name name then c else d.cell row column.name

theorem Definition.number_copied (d : Definition) (row : Record) (name : String) (c : Cell) :
    (d.copied row name c).number ≠ row.number := by
  simp only [copied]
  split <;> omega

section Copy

variable (distinct : d.Distinct) (row : Record) (c : Cell)

include distinct

/-- What a column of a copy holds. -/
theorem Definition.cell_copied_of_mem (name : String) {column : Column}
    (member : column ∈ d.columns)
    (plain : d.isNumberColumn column = false) :
    d.cell (d.copied row name c) column.name =
      if sameName column.name name then c else d.cell row column.name :=
  cell_of_map distinct member plain
    (fun column => if sameName column.name name then c else d.cell row column.name) rfl

/-- Under any other name a copy reads as its row does. -/
theorem Definition.cell_copied {other : String} (apart : ¬sameName other name = true)
    (plain : d.isNumber other = false) : d.cell (d.copied row name c) other = d.cell row other := by
  cases found : d.column? other with
  | none =>
    have unknown : d.hasColumn other = false := by rw [hasColumn, found]; rfl
    simp only [cell, plain, unknown, Bool.false_eq_true, if_false]
  | some column =>
    have member := List.mem_of_find?_eq_some found
    have spelled : sameName other column.name = true := by
      rw [sameName_comm]
      exact List.find?_some (p := fun column : Column => sameName column.name other) found
    have known := hasColumn_of_mem member
    rw [isNumber_congr spelled, isNumber_of_mem distinct member] at plain
    rw [sameName_trans spelled] at apart
    rw [cell_congr spelled known, cell_congr spelled known,
      cell_copied_of_mem distinct row c name member plain, if_neg apart]

/-- A copy under a column of the key has another key, unless the cell given to it is the old one. -/
theorem Definition.sameKey_copied (inKey : name ∈ d.key) (known : d.hasColumn name = true)
    (other : (d.cell row name).sameAs c = false) :
    d.sameKey row (d.copied row name c) = false := by
  rw [sameKey, List.all_eq_false]
  refine ⟨name, inKey, ?_⟩
  cases number : d.isNumber name with
  | true =>
    have numbers := d.number_copied row name c
    simp only [cell, number, if_true]
    simpa [Cell.sameAs, Cell.measure] using numbers.symm
  | false =>
    obtain ⟨column, found⟩ := Option.isSome_iff_exists.mp known
    have member := List.mem_of_find?_eq_some found
    have spelled : sameName column.name name = true :=
      List.find?_some (p := fun column : Column => sameName column.name name) found
    have plain := number
    rw [← isNumber_congr spelled, isNumber_of_mem distinct member] at plain
    have copy := cell_copied_of_mem distinct row c name member plain
    rw [if_pos spelled, cell_congr spelled known] at copy
    rw [copy, other]
    exact Bool.false_ne_true

end Copy

/-- Some value of a kind is not in a cell. -/
theorem exists_other (kind : ColumnKind) (c : Cell) :
    ∃ v : Value, c.sameAs (Cell.ofValue v) = false := by
  by_cases first : c.sameAs (Cell.ofValue kind.sample) = true
  · refine ⟨kind.otherSample, Bool.eq_false_iff.mpr fun second => ?_⟩
    simp only [Cell.sameAs, Bool.and_eq_true, decide_eq_true_iff] at first second
    exact kind.sample_ne_otherSample kind (measure_ofValue_inj.mp (first.2.symm.trans second.2))
  · exact ⟨kind.sample, by simpa using first⟩

/-! ### A row of samples -/

/-- A row with a sample of the kind of each column, which never expires. -/
def sampleRow (l : Layout) : Record where
  number := 0
  cells := l.columns.map (fun spec => Cell.ofValue spec.kind.sample) ++ [.null]

section Samples

variable {l : Layout} (distinct : (Definition.ofLayout l).Distinct)

theorem sampleRow_length :
    (Definition.ofLayout l).columns.length = (sampleRow l).cells.length := by
  simp [Definition.ofLayout, sampleRow]

theorem zip_sampleRow : (Definition.ofLayout l).columns.zip (sampleRow l).cells =
    (l.columns.map fun spec => (columnOf spec, Cell.ofValue spec.kind.sample)) ++
      [(hidden, .null)] := by
  have columns : (Definition.ofLayout l).columns = l.columns.map columnOf ++ [hidden] := rfl
  rw [columns, sampleRow, List.zip_append (by simp), List.zip_map']
  rfl

include distinct

theorem cell_sampleRow {spec : ColumnSpec} (member : spec ∈ l.columns) :
    (Definition.ofLayout l).cell (sampleRow l) spec.name.text = .ofValue spec.kind.sample := by
  have column := columnOf_mem member
  cases plain : (Definition.ofLayout l).isNumberColumn (columnOf spec) with
  | true =>
    -- The number of the row is that of the sample of flags.
    refine (Definition.cell_of_isNumberColumn distinct column plain).trans ?_
    rw [kind_of_isNumberColumn plain]
    rfl
  | false =>
    refine cell_of_mem distinct (columnOf spec) sampleRow_length ?_ plain
    rw [zip_sampleRow]
    exact List.mem_append_left _ (List.mem_map_of_mem
      (f := fun spec : ColumnSpec => (columnOf spec, Cell.ofValue spec.kind.sample)) member)

theorem isLive_sampleRow (moment : Int) :
    (Definition.ofLayout l).isLive (sampleRow l) moment = true := by
  have cell : (Definition.ofLayout l).cell (sampleRow l) expiryColumn = .null := by
    refine cell_of_mem distinct hidden sampleRow_length ?_ (isNumberColumn_hidden distinct)
    rw [zip_sampleRow]
    exact List.mem_append_right _ (List.mem_singleton.mpr rfl)
  rw [Definition.isLive, cell]

end Samples

/-- The row agrees with samples that are bound over the layout of its table. -/
theorem agrees_sampleRow (distinct : (Definition.ofLayout b.template.layout).Distinct)
    (samples : b.values = b.template.samples) :
    (Definition.ofLayout b.template.layout).Agrees b (sampleRow b.template.layout) := by
  intro p member
  obtain ⟨spec, found, -⟩ := b.exists_column member
  obtain ⟨inside, named⟩ := Layout.of_column?_eq_some found
  rw [samples, b.template.zip_samples] at member
  obtain ⟨name, compared, rfl⟩ := List.mem_map.mp member
  subst named
  rw [cell_sampleRow distinct inside, Layout.sample_of_column? found,
    convert_column inside distinct spec.kind.kind_sample, sameAs_ofValue]
  exact decide_eq_true rfl

/-! ### Which deletes are deletes of a single row -/

namespace File

/-- What a file may have become while a session is still open: its tables may have any rows. -/
structure Leads (f f' : File) (session : Nat) : Prop where
  extension : f.Extends f'
  sound : f'.Sound
  isOpen : f'.IsOpen session

/-- Whether a prepared statement takes at most one row away, whatever the table has come to hold and
whatever is bound. -/
def TakesOne (f : File) (session : Nat) (p : Prepared) : Prop :=
  ∀ f', f.Leads f' session → ∀ b, b.statement = p → ∀ now, (f'.removed now session b).length ≤ 1

/-- Whether a prepared statement never takes a row away. -/
def TakesNone (f : File) (session : Nat) (p : Prepared) : Prop :=
  ∀ f', f.Leads f' session → ∀ b, b.statement = p → ∀ now, f'.removed now session b = []

/-- What the execution of a delete does to the rows of a table. -/
structure Deletes (f : File) (session : Nat) (b : Bound) (now : Nat) (r : Relation) : Prop where
  found : f.database.relation? b.template.layout.table.name.text = some r
  /-- A plain delete with a condition fails. -/
  surplus : Surplus b.template → (∃ e, f.execute now session b = (.error e, f)) ∧
    f.removed now session b = []
  /-- Any other takes exactly the rows that agree with what is bound and, if it is conditional,
  live. -/
  taken : ¬Surplus b.template → (∃ result, (f.execute now session b).1 = .ok result) ∧
    ∀ row, row ∈ f.removed now session b ↔ row ∈ r.rows ∧ r.definition.Agrees b row ∧
      (b.template.kind = .conditionalDelete → r.definition.isLive row (reading now) = true)
  /-- If that singles a row out, it is at most one. -/
  single : r.definition.SinglesOut b.template → (f.removed now session b).length ≤ 1
  /-- If it includes the key, the row has the bound key. -/
  key : r.definition.ComparesKey b.template →
    ∀ row ∈ f.removed now session b, r.definition.HasBoundKey b row

/-- What a delete does. -/
theorem Sound.deletes (sound : f.Sound) (asks : f.Asks session b) (delete : IsDelete b.template)
    (now : Nat)
    (found : f.database.relation? b.template.layout.table.name.text = some r) :
    f.Deletes session b now r := by
  obtain ⟨keyed, l, -, definition, definable⟩ := sound.table found
  rw [← definition] at definable
  have live (row : Record) :
      (b.template.kind ≠ .deleteByKey → r.definition.isLive row (reading now) = true) ↔
        (b.template.kind = .conditionalDelete → r.definition.isLive row (reading now) = true) := by
    rcases delete with kind | kind <;> simp [kind]
  rcases removed_eq now sound asks delete found with
    ⟨surplus, failed, removed⟩ | ⟨plain, done, removed⟩
  · exact {
      found
      surplus := fun _ => ⟨failed, removed⟩
      taken := fun plain => absurd surplus plain
      single := fun _ => by rw [removed]; exact Nat.zero_le _
      key := fun _ row member => by rw [removed] at member; cases member }
  · have rows (row : Record) : row ∈ f.removed now session b ↔ row ∈ r.rows ∧
        r.definition.Agrees b row ∧ (b.template.kind = .conditionalDelete →
          r.definition.isLive row (reading now) = true) := by
      rw [removed, List.mem_filter, Definition.picks_iff, live]
    exact {
      found
      surplus := fun surplus => absurd surplus plain
      taken := fun _ => ⟨done, rows⟩
      single := fun singles => by rw [removed]; exact keyed.length_picked definable singles
      key := fun compares row member =>
        ((rows row).mp member).2.1.hasBoundKey definable.declared compares }

/-- The table of a name may come to hold any rows of different numbers and keys. -/
theorem Leads.withRows (leads : f.Leads f' session)
    (found : f'.database.relation? name = some r) {rows : List Record}
    (keyed : Relation.Keyed { r with rows }) : f.Leads (f'.withRows name r rows) session :=
  ⟨leads.extension.trans (extends_database f' _), leads.sound.replace found rfl keyed, leads.isOpen⟩

section Accepted

variable (accepted : f.Accepted session b.template b.statement) (delete : IsDelete b.template)

include accepted

theorem Leads.asks (leads : f.Leads f' session) : f'.Asks session b :=
  ⟨accepted.mono leads.extension, leads.isOpen⟩

include delete

/-- If a table holds only rows that a delete picks, it takes them all. -/
theorem Leads.removed_all (leads : f.Leads f' session) (plain : ¬Surplus b.template)
    (found : f'.database.relation? b.template.layout.table.name.text = some r)
    (all : ∀ row ∈ r.rows, r.definition.picks b now row = true) :
    f'.removed now session b = r.rows := by
  rcases removed_eq now leads.sound (leads.asks accepted) delete found with
    ⟨surplus, -⟩ | ⟨-, -, removed⟩
  · exact absurd surplus plain
  · rw [removed, List.filter_eq_self.mpr all]

/-- If what a delete compares does not single a row out and it takes a row somewhere, there are
contents of its table from which it takes two rows at once. -/
theorem Leads.exists_two_removed (leads : f.Leads f' session)
    (found : f'.database.relation? b.template.layout.table.name.text = some r)
    (shared : ¬r.definition.SinglesOut b.template) (taken : row ∈ f'.removed now session b) :
    ∃ f'', f.Leads f'' session ∧ (f''.removed now session b).length = 2 := by
  obtain ⟨-, l, -, definition, definable⟩ := leads.sound.table found
  rcases removed_eq now leads.sound (leads.asks accepted) delete found with
    ⟨-, -, removed⟩ | ⟨plain, -, removed⟩
  · rw [removed] at taken
    cases taken
  rw [removed, List.mem_filter, r.definition.picks_iff] at taken
  obtain ⟨-, agrees, live⟩ := taken
  have spares : SparesExpiry l := definable.distinct.sparesExpiry
  have plainExpiry := isNumber_expiry definable.distinct
  rw [← definition] at definable plainExpiry
  obtain ⟨compares, numbers⟩ := not_or.mp shared
  obtain ⟨name, inKey, uncompared⟩ : ∃ name ∈ r.definition.key,
      ∀ column ∈ b.template.parameterColumns, ¬sameName column.text name = true := by
    simpa only [Definition.ComparesKey, not_forall, not_exists, not_and, exists_prop] using compares
  obtain ⟨v, fresh⟩ := exists_other .text (r.definition.cell row name)
  let copy := r.definition.copied row name (.ofValue v)
  -- The copy reads as the row does wherever the delete looks.
  have reads (other : String) (apart : ¬sameName other name = true)
      (plain : r.definition.isNumber other = false) :
      r.definition.cell copy other = r.definition.cell row other :=
    Definition.cell_copied definable.distinct row (.ofValue v) apart plain
  have agrees' : r.definition.Agrees b copy := by
    intro p paired
    have compared := (List.of_mem_zip paired).1
    have plain : r.definition.isNumber p.1.text = false :=
      Bool.eq_false_iff.mpr fun number => numbers ⟨p.1, compared, number⟩
    rw [reads p.1.text (uncompared p.1 compared) plain]
    exact agrees p paired
  have live' : r.definition.isLive copy (reading now) = r.definition.isLive row (reading now) := by
    have hiddenName : ¬sameName expiryColumn name = true := by
      rw [definition] at inKey
      obtain ⟨spec, primary, rfl⟩ := List.mem_map.mp inKey
      rw [sameName_comm, spares spec (List.mem_append_left _ primary)]
      exact Bool.false_ne_true
    rw [Definition.isLive, Definition.isLive, reads expiryColumn hiddenName plainExpiry]
  have keyed : Relation.Keyed { r with rows := [row, copy] } := by
    refine List.pairwise_pair.mpr ?_
    have numbers := r.definition.number_copied row name (.ofValue v)
    have keys := Definition.sameKey_copied definable.distinct row (.ofValue v) inKey
      (definable.declared name inKey) fresh
    rw [Definition.replaces, keys, Bool.or_false, decide_eq_false_iff_not]
    exact numbers.symm
  have leads' := leads.withRows found keyed
  refine ⟨_, leads', ?_⟩
  rw [leads'.removed_all accepted delete plain
    (relation?_withRows found [row, copy] (sameName_self _)) fun old member => ?_]
  · rfl
  · rw [Definition.picks_iff]
    rcases List.mem_cons.mp member with rfl | last
    · exact ⟨agrees, live⟩
    · rw [List.mem_singleton.mp last]
      exact ⟨agrees', fun kind => live'.trans (live kind)⟩

end Accepted

/-- If the table was created under the layout of a delete that can be executed, there are contents
of the table from which the delete takes a row. -/
theorem Leads.exists_removed (leads : f.Leads f' session)
    (accepted : f.Accepted session b.template b.statement) (delete : IsDelete b.template)
    (plain : ¬Surplus b.template)
    (created : f'.createdAs? b.template.layout.table.name.text = some b.template.layout)
    (samples : b.values = b.template.samples) :
    ∃ f'', f.Leads f'' session ∧ f''.removed now session b ≠ [] := by
  let l := b.template.layout
  have definitionEq := leads.sound.relation? l.table.name.text
  rw [created, Option.map_some] at definitionEq
  obtain ⟨r, found, definition⟩ := Option.map_eq_some_iff.mp definitionEq
  have distinct := (leads.sound.definable l (List.mem_of_find?_eq_some created)).distinct
  have keyed : Relation.Keyed { r with rows := [sampleRow l] } := List.pairwise_singleton _ _
  have leads' := leads.withRows found keyed
  refine ⟨_, leads', ?_⟩
  rw [leads'.removed_all accepted delete plain
    (relation?_withRows found [sampleRow l] (sameName_self _)) fun row member => ?_]
  · exact List.cons_ne_nil _ _
  · rw [List.mem_singleton.mp member, definition, Definition.picks_iff]
    exact ⟨agrees_sampleRow distinct samples, fun _ => isLive_sampleRow distinct (reading now)⟩

/-- On the table of its own layout a delete to which something can be bound singles a row out by the
key only. -/
theorem comparesKey_of_singlesOut {values : List Value} (bindable : t.accept values = .ok ())
    (distinct : (Definition.ofLayout t.layout).Distinct)
    (singles : (Definition.ofLayout t.layout).SinglesOut t) :
    (Definition.ofLayout t.layout).ComparesKey t := by
  refine singles.elim id ?_
  rintro ⟨column, compared, number⟩ name inKey
  obtain ⟨spec, found⟩ := Template.exists_column bindable compared
  obtain ⟨inside, rfl⟩ := Layout.of_column?_eq_some found
  have own := isNumber_of_mem distinct (columnOf_mem inside)
  obtain ⟨-, only, key, spelled⟩ := affinity_of_isNumberColumn (own.symm.trans number)
  rw [key] at inKey
  rw [List.mem_singleton.mp inKey]
  exact ⟨spec.name, compared, by rw [sameName_comm]; exact spelled⟩

/-- What a delete that a session has accepted takes away, from whatever its table holds by then.
It takes exactly the rows in which what it compares equals the bound values and, if it is
conditional, that live; a plain delete with a condition fails instead and takes none.  It takes at
most one row, whatever the table holds and whatever is bound, exactly if it compares every column of
the key of the table or the number of a row, or never takes any.  For the table of the template's
own layout that is to say that it compares every column of the key, or always fails, or can never be
bound. -/
theorem removes_one_iff_comparesKey (before : List Request) {session : Nat} {p : Prepared}
    {t : Template} (prepared : ((empty.serveAll before).prepare session t).1 = .ok p)
    (delete : IsDelete t) :
    let f := ((empty.serveAll before).prepare session t).2
    let table := t.layout.table.name.text
    p.template = t ∧ ∃ l, f.createdAs? table = some l ∧
      (∀ f', f.Leads f' session → ∀ b, b.statement = p → ∀ now,
        ∃ r, r.definition = .ofLayout l ∧ f'.Deletes session b now r) ∧
      (f.TakesOne session p ↔ (Definition.ofLayout l).SinglesOut t ∨ f.TakesNone session p) ∧
      (l = t.layout → (f.TakesOne session p ↔
        (Definition.ofLayout t.layout).ComparesKey t ∨ Surplus t ∨
          ∀ values, t.accept values ≠ .ok ())) := by
  intro f table
  obtain ⟨sound₀, -⟩ := sound_empty.serveAll before
  obtain ⟨sound, -, accepts⟩ := sound₀.prepare session t
  have accepted := accepts p prepared
  obtain rfl : t = p.template := by
    obtain ⟨-, sql, -, -, rfl, -⟩ := accepted
    rfl
  obtain ⟨-, sql, l, translated, -, created, -⟩ := id accepted
  rw [translate_table translated] at created
  have initial : f.Leads f session := ⟨Extends.refl f, sound, isOpen_of_prepared prepared⟩
  have deletes (f' : File) (leads : f.Leads f' session) (b : Bound) (statement : b.statement = p)
      (now : Nat) : ∃ r, r.definition = .ofLayout l ∧ f'.Deletes session b now r := by
    subst statement
    have definitionEq := leads.sound.relation? table
    rw [leads.extension.createdAs? created, Option.map_some] at definitionEq
    obtain ⟨r, found, definition⟩ := Option.map_eq_some_iff.mp definitionEq
    exact ⟨r, definition, leads.sound.deletes (leads.asks accepted) delete now found⟩
  have one : f.TakesOne session p ↔
      (Definition.ofLayout l).SinglesOut p.template ∨ f.TakesNone session p := by
    refine ⟨fun single => Classical.or_iff_not_imp_left.mpr fun shared => ?_, fun either => ?_⟩
    · intro f' leads b statement now
      obtain ⟨r, definition, effect⟩ := deletes f' leads b statement now
      subst statement
      rw [List.eq_nil_iff_forall_not_mem]
      intro row taken
      obtain ⟨f'', leads', two⟩ := leads.exists_two_removed accepted delete effect.found
        (definition ▸ shared) taken
      have few := single f'' leads' b rfl now
      omega
    · intro f' leads b statement now
      obtain ⟨r, definition, effect⟩ := deletes f' leads b statement now
      subst statement
      rcases either with singles | never
      · exact effect.single (definition ▸ singles)
      · rw [never f' leads b rfl now]
        exact Nat.zero_le _
  refine ⟨rfl, l, created, deletes, one, ?_⟩
  rintro rfl
  have distinct := (sound.definable _ (List.mem_of_find?_eq_some created)).distinct
  rw [one]
  constructor
  · rintro (singles | never)
    · by_cases bindable : ∃ values, p.template.accept values = .ok ()
      · obtain ⟨values, bindable⟩ := bindable
        exact .inl (comparesKey_of_singlesOut bindable distinct singles)
      · exact .inr (.inr fun values accepted => bindable ⟨values, accepted⟩)
    · refine .inr (Classical.or_iff_not_imp_left.mpr fun plain values bindable => ?_)
      let b : Bound := ⟨p, p.template.samples, Template.accept_samples bindable⟩
      obtain ⟨f', leads, taken⟩ : ∃ f', f.Leads f' session ∧ f'.removed 0 session b ≠ [] :=
        initial.exists_removed accepted delete plain created rfl
      exact taken (never f' leads b rfl 0)
  · rintro (compares | surplus | unbound)
    · exact .inl (.inl compares)
    · refine .inr fun f' leads b statement now => ?_
      obtain ⟨r, -, effect⟩ := deletes f' leads b statement now
      subst statement
      exact (effect.surplus surplus).2
    · refine .inr fun f' leads b statement now => ?_
      subst statement
      exact absurd b.admitted (unbound b.values)

/-- The plain delete of the plain repository is a delete of a single row. -/
theorem removes_one_plain :
    let t := plainRepository.schema.template .deleteByKey
    let p : Prepared := ⟨t, (plainRepository.schema.sql .deleteByKey).text⟩
    let f := ((empty.serveAll [.connect]).prepare 0 t).2
    ((empty.serveAll [.connect]).prepare 0 t).1 = .ok p ∧
      f.TakesOne 0 p := by
  intro t p f
  have prepared : ((empty.serveAll [.connect]).prepare 0 t).1 = .ok p := by decide +kernel
  obtain ⟨-, l, created, -, -, own⟩ := removes_one_iff_comparesKey [.connect] prepared (.inl rfl)
  have layout : f.createdAs? t.layout.table.name.text = some t.layout := by decide +kernel
  have compares : (Definition.ofLayout t.layout).ComparesKey t := by
    unfold Definition.ComparesKey
    decide +kernel
  exact ⟨prepared, (own (Option.some.inj (created.symm.trans layout))).mpr (.inl compares)⟩

/-- The schema of one of the tenants of a table. -/
def tenantSchema : Schema := (tenantRepository "a").schema

/-- A plain delete of everything that a tenant has. -/
def tenantDelete : Template :=
  { tenantSchema.template .deleteByKey with filter := [Repository.tenantColumn] }

/-- The insert of a result of a group of the tenant. -/
def tenantInsert (group : String) : Bound where
  statement := ⟨tenantSchema.template .insert, (tenantSchema.sql .insert).text⟩
  values := [.text "a", .text group, .text "x", .blob ByteArray.empty]
  admitted := (tenantSchema.accept_iff .insert _).mpr rfl

/-- The delete as the database has it. -/
def tenantSql : Sql := .delete "results" ⟨["tenant"], false⟩

/-- The delete with the tenant bound to it. -/
def tenantBound : Bound := ⟨⟨tenantDelete, tenantSql.text⟩, [.text "a"], by decide +kernel⟩

/-- A session accepts the delete though the key has another column, and one execution takes two rows
away, of two groups. -/
theorem tenantDelete_removes_two :
    let opened := empty.serveAll [.connect, .prepare 0 (tenantSchema.template .insert)]
    let f := (opened.prepare 0 tenantDelete).2.serveAll
      [.execute 0 (tenantInsert "k1") 0, .execute 0 (tenantInsert "k2") 0]
    tenantDelete.kind = .deleteByKey ∧
      (opened.prepare 0 tenantDelete).1 = .ok tenantBound.statement ∧
      (f.execute 0 0 tenantBound).1 = .ok .empty ∧ (f.removed 0 0 tenantBound).length = 2 := by
  decide +kernel

end File

end GroupStore.Sqlite
