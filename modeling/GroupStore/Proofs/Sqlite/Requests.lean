import GroupStore.Proofs.Bindings
import GroupStore.Proofs.Sqlite.Refused
import GroupStore.Proofs.Sqlite.View
import GroupStore.Proofs.Sqlite.File

/-!
# Executing accepted statements on a file

The sessions of a file are asked for whatever anyone likes, in any order.  Once a session has
accepted a statement and as long as it is open, the statement finds its table, whatever has become
of the rows, and runs its own SQL there.

A select or a delete picks the rows whose compared columns hold the bound values, as the columns
convert them; unless it is a plain delete, only those that live.

* `File.Request`, `File.serveAll` — histories of a file, with `Sound.serveAll`;
* `File.Asks` — a statement that an open session has accepted, `Sound.stands` what it finds;
* `Definition.Agrees`, `Definition.picks` — the rows that a select or a delete works on;
* `File.Stands.select`, `File.Stands.delete`, `File.Stands.insert` — what the statements do.
-/

namespace GroupStore.Sqlite

/-! ### Histories -/

namespace File

/-- What a file may be asked for. -/
inductive Request where
  /-- One more session is opened. -/
  | connect
  | prepare (session : Nat) (t : Template)
  | execute (session : Nat) (b : Bound) (now : Nat)
  /-- A session deletes what has expired. -/
  | purge (session now : Nat)
  | close (session : Nat)

/-- What becomes of a file by a request. -/
def serve (f : File) : Request → File
  | .connect => f.connect
  | .prepare session t => (f.prepare session t).2
  | .execute session b now => (f.execute now session b).2
  | .purge session now => f.purge now session
  | .close session => (f.close session).2

/-- What becomes of a file by some requests, first to last. -/
def serveAll (f : File) (requests : List Request) : File := requests.foldl serve f

variable {f : File}

theorem serveAll_append (f : File) (before after : List Request) :
    f.serveAll (before ++ after) = (f.serveAll before).serveAll after :=
  List.foldl_append

theorem Sound.serve (sound : f.Sound) (request : Request) :
    (f.serve request).Sound ∧ f.Extends (f.serve request) := by
  cases request with
  | connect => exact ⟨sound.connect, extends_connect f⟩
  | prepare session t => exact sound.prepare_keeps session t
  | execute session b now => exact sound.execute now session b
  | purge session now => exact sound.purge now session
  | close session => exact sound.close session

/-- Whatever is asked for, a file stays sound and is extended. -/
theorem Sound.serveAll (sound : f.Sound) (requests : List Request) :
    (f.serveAll requests).Sound ∧ f.Extends (f.serveAll requests) := by
  induction requests generalizing f with
  | nil => exact ⟨sound, Extends.refl f⟩
  | cons request rest ih =>
    obtain ⟨next, one⟩ := sound.serve request
    obtain ⟨last, others⟩ := ih next
    exact ⟨last, one.trans others⟩

/-- What is known of the table of a name: the layout under which it was created. -/
theorem Sound.table (sound : f.Sound) {name : String} {r : Relation}
    (found : f.database.relation? name = some r) :
    r.Keyed ∧ ∃ l, f.createdAs? name = some l ∧ r.definition = .ofLayout l ∧
      (Definition.ofLayout l).Sound := by
  have definitionEq := sound.relation? name
  rw [found, Option.map_some] at definitionEq
  obtain ⟨l, created, definition⟩ := Option.map_eq_some_iff.mp definitionEq.symm
  exact ⟨sound.keyed r (List.mem_of_find?_eq_some found), l, created, definition.symm,
    sound.definable l (List.mem_of_find?_eq_some created)⟩

end File

/-! ### The rows of a statement -/

/-- Whether what a statement compares equals the bound values.  A name stands for a column, for the
number of the row, or for itself where the table has neither. -/
def Definition.Agrees (d : Definition) (b : Bound) (row : Record) : Prop :=
  ∀ p ∈ b.template.parameterColumns.zip b.values,
    (d.cell row p.1.text).sameAs (d.convert p.1.text (Cell.ofValue p.2)) = true

/-- Whether a statement works on a row of a table: the row agrees with what is bound and, unless the
statement is a plain delete, lives. -/
def Definition.picks (d : Definition) (b : Bound) (now : Nat) (row : Record) : Bool :=
  d.matches row (b.template.parameterColumns.map Identifier.text) (b.values.map Cell.ofValue) &&
    (b.template.kind == .deleteByKey || d.isLive row (reading now))

/-- Comparing names with parameters is comparing what each stands for with its value. -/
theorem Definition.matches_iff (d : Definition) (row : Record) {names : List Identifier}
    {values : List Value} (lengthEq : names.length = values.length) :
    d.matches row (names.map Identifier.text) (values.map Cell.ofValue) = true ↔
      ∀ p ∈ names.zip values,
        (d.cell row p.1.text).sameAs (d.convert p.1.text (Cell.ofValue p.2)) = true := by
  induction names generalizing values with
  | nil => simp [Definition.matches]
  | cons name rest ih =>
    cases values with
    | nil => cases lengthEq
    | cons value others =>
      rw [List.zip_cons_cons, List.forall_mem_cons, List.map_cons, List.map_cons,
        Definition.matches, Bool.and_eq_true, ih (Nat.succ.inj lengthEq)]

theorem Definition.picks_iff (d : Definition) (b : Bound) (now : Nat) (row : Record) :
    d.picks b now row = true ↔ d.Agrees b row ∧
      (b.template.kind ≠ .deleteByKey → d.isLive row (reading now) = true) := by
  rw [Definition.picks, Bool.and_eq_true, d.matches_iff row b.length_values, Bool.or_eq_true,
    beq_iff_eq, Definition.Agrees, ← Classical.or_iff_not_imp_left]

/-! ### Statements on their table -/

namespace File

variable {f : File} {session : Nat} {b : Bound} {sql : Sql} {r : Relation} {now : Nat}

/-- A session that has been opened and not closed. -/
def IsOpen (f : File) (session : Nat) : Prop :=
  ∃ c, f.connections[session]? = some c ∧ c.closed = false

/-- Only an open session accepts a statement, and it stays open. -/
theorem isOpen_of_prepared {t : Template} {p : Prepared}
    (prepared : (f.prepare session t).1 = .ok p) :
    (f.prepare session t).2.IsOpen session := by
  cases found : f.connections[session]? with
  | none =>
    simp only [File.prepare, found] at prepared
    cases prepared
  | some c =>
    obtain ⟨inside, -⟩ := List.getElem?_eq_some_iff.mp found
    simp only [File.prepare, found] at prepared ⊢
    rcases prepare_steps t c f.database with
      ⟨e, refused⟩ | ⟨sql, c', db', -, -, isOpen, registered, run⟩
    · rw [refused] at prepared
      cases prepared
    · have closedEq : c'.closed = c.closed := by
        rcases (Connection.register_cases registered).2 with ⟨rfl, -⟩ | ⟨-, rfl, -⟩ <;> rfl
      rw [run]
      exact ⟨c', List.getElem?_set_self inside, closedEq.trans isOpen⟩

/-- An open session is asked for a statement that it has accepted. -/
structure Asks (f : File) (session : Nat) (b : Bound) : Prop where
  accepted : f.Accepted session b.template b.statement
  isOpen : f.IsOpen session

/-- An open session has a statement at hand whose SQL is its own and which finds a table with a
place for all that it assigns. -/
structure Stands (f : File) (session : Nat) (b : Bound) (sql : Sql) (r : Relation) : Prop where
  isOpen : f.IsOpen session
  translated : translate b.template = .ok sql
  native : b.statement.native = sql.text
  found : f.database.relation? sql.table = some r
  known : r.definition.unknown? sql = none

/-- An accepted statement stands. -/
theorem Sound.stands (sound : f.Sound) (asks : f.Asks session b) :
    ∃ sql r, f.Stands session b sql r := by
  obtain ⟨-, sql, l, translated, prepared, created, admits⟩ := asks.accepted
  have definitionEq := sound.relation? sql.table
  rw [created, Option.map_some] at definitionEq
  obtain ⟨r, found, definition⟩ := Option.map_eq_some_iff.mp definitionEq
  have native : b.statement.native = sql.text := congrArg Prepared.native prepared
  rw [Definition.admits, Bool.and_eq_true, Option.isNone_iff_eq_none] at admits
  exact ⟨sql, r, asks.isOpen, translated, native, found, definition ▸ admits.2⟩

/-- The statement stands for its SQL, and reads no name without quotes. -/
theorem Stands.own (stands : f.Stands session b sql r) :
    sqlOf b.statement = .ok sql ∧
      f.database.unresolved? sql.table (bareNames b.statement sql) = none := by
  have translated : translate b.statement.template = .ok sql := stands.translated
  refine ⟨?_, unresolved?_own f.database sql.table stands.native⟩
  rw [sqlOf, translated]
  exact if_pos stands.native.symm

/-- The outcome of a statement is that of its SQL on its table. -/
theorem Stands.execute (stands : f.Stands session b sql r) (now : Nat)
    (count : (parameters b now).length = sql.parameters) :
    f.execute now session b =
      match r.run sql (parameters b now) with
      | .error e => (.error (Failure.run e).toSessionError, f)
      | .ok (answer, r') =>
        match readAnswer b.template answer with
        | .error failure => (.error failure.toSessionError, f)
        | .ok result => (.ok result, { f with database := f.database.replace sql.table r' }) := by
  obtain ⟨c, connected, isOpen⟩ := stands.isOpen
  cases ran : r.run sql (parameters b now) with
  | error e =>
    have whole : runBound b now f.database = .error (.run e) := by
      simp only [runBound, stands.own, Database.run, stands.found, stands.known, if_pos count, ran]
    simp only [File.execute, connected, Sqlite.execute, isOpen, Bool.false_eq_true, if_false, whole]
  | ok outcome =>
    obtain ⟨answer, r'⟩ := outcome
    have whole : runBound b now f.database = (readAnswer b.template answer).map fun result =>
        (result, f.database.replace sql.table r') := by
      simp only [runBound, stands.own, Database.run, stands.found, stands.known, if_pos count, ran]
    simp only [File.execute, connected, Sqlite.execute, isOpen, Bool.false_eq_true, if_false, whole]
    cases readAnswer b.template answer with
    | error failure => simp only [Except.map]
    | ok result => simp only [Except.map]

/-- A statement with too few or too many parameters fails and changes nothing. -/
theorem Stands.execute_miscounted (stands : f.Stands session b sql r)
    (count : (parameters b now).length ≠ sql.parameters) :
    ∃ e, f.execute now session b = (.error e, f) := by
  obtain ⟨c, connected, isOpen⟩ := stands.isOpen
  have whole : runBound b now f.database = .error (.run (.parameterCount
      (min (parameters b now).length (sql.parameters + 1)) sql.parameters)) := by
    simp only [runBound, stands.own, Database.run, stands.found, stands.known, if_neg count]
  simp only [File.execute, connected, Sqlite.execute, isOpen, Bool.false_eq_true, if_false, whole]
  exact ⟨_, rfl⟩

end File

/-! ### Guards -/

/-- The rows that a select or a delete works on, as its SQL says it. -/
def guardOf (t : Template) : Guard :=
  ⟨t.parameterColumns.map Identifier.text, t.kind != .deleteByKey⟩

variable {t : Template} {b : Bound} {sql : Sql} {now : Nat}

theorem translate_select (read : t.kind.isRead = true) (plain : t.condition = none) :
    translate t = .ok (.select t.layout.table.name.text (t.projection.map Identifier.text)
      (guardOf t)) := by
  have columns : t.parameterColumns = t.filter := by
    cases kind : t.kind <;>
      simp [Template.parameterColumns, kind, plain, StatementKind.isRead] at read ⊢
  cases kind : t.kind <;> simp [kind, StatementKind.isRead] at read <;>
    simp [translate, guardOf, kind, columns]

theorem translate_delete
    (delete : t.kind = .deleteByKey ∧ t.condition = none ∨ t.kind = .conditionalDelete)
    (translated : translate t = .ok sql) : sql = .delete t.layout.table.name.text (guardOf t) := by
  rcases delete with ⟨kind, plain⟩ | kind
  · simp only [translate, kind] at translated
    split at translated
    · cases translated
    · cases translated
      simp [guardOf, Template.parameterColumns, kind, plain]
  · simp only [translate, kind] at translated
    split at translated
    · cases translated
    · rename_i column condition
      cases translated
      simp [guardOf, Template.parameterColumns, kind, condition]

/-- The guard of a statement admits the rows that the statement picks. -/
theorem admits_eq_picks (writes : b.template.kind ≠ .insert) (d : Definition) (row : Record) :
    (guardOf b.template).admits d (parameters b now) row = d.picks b now row := by
  have lengthEq : (b.template.parameterColumns.map Identifier.text).length =
      (b.values.map Cell.ofValue).length := by
    rw [List.length_map, List.length_map, b.length_values]
  have compared := Definition.matches_append (d := d) row lengthEq []
    (addedParameters b.template now)
  rw [List.append_nil, Definition.matches, Bool.and_true] at compared
  have moment : b.template.kind ≠ .deleteByKey →
      (guardOf b.template).reading (parameters b now) = reading now := by
    intro plain
    have added : addedParameters b.template now = [.integer (reading now)] := by
      cases kind : b.template.kind <;> simp_all [addedParameters]
    rw [Guard.reading, guardOf, parameters, List.getElem?_append_right (Nat.le_of_eq lengthEq.symm),
      lengthEq, added]
    simp
  rw [Guard.admits, Definition.picks, parameters]
  rw [parameters] at moment
  by_cases plain : b.template.kind = .deleteByKey
  · simp [guardOf, compared, plain]
  · have other : (b.template.kind == .deleteByKey) = false := by simpa using plain
    rw [moment plain]
    simp [guardOf, compared, bne, other]

/-- A statement that looks for rows binds as many values as its guard compares. -/
theorem parameters_length_guard (writes : b.template.kind ≠ .insert) (now : Nat) :
    (parameters b now).length = (guardOf b.template).parameters := by
  rw [parameters, List.length_append, List.length_map, ← b.length_values, Guard.parameters, guardOf,
    List.length_map]
  cases kind : b.template.kind <;> simp_all [addedParameters]

/-! ### Reading rows -/

/-- Whether the projected cells of a row are data of the kinds of the statement's layout. -/
def Definition.Legible (d : Definition) (b : Bound) (row : Record) : Prop :=
  ∀ name ∈ b.template.projection, ∃ spec value, b.template.layout.column? name = some spec ∧
    (d.cell row name.text).toValue? spec.kind = some value

/-- A row as a select returns it. -/
def Definition.project (d : Definition) (b : Bound) (row : Record) : Row :=
  .ofCells (b.template.projection.filterMap fun name =>
    (b.template.layout.column? name).bind fun spec =>
      ((d.cell row name.text).toValue? spec.kind).map fun value => (name.text, value))

theorem readCell_eq_ok_iff {l : Layout} {name : Identifier} {c : Cell} {cell : String × Value} :
    readCell l name c = .ok cell ↔
      ∃ spec, l.column? name = some spec ∧ ∃ value, c.toValue? spec.kind = some value ∧
        cell = (name.text, value) := by
  rw [readCell]
  cases l.column? name with
  | none => simp
  | some spec => cases read : c.toValue? spec.kind <;> simp [read, eq_comm]

theorem readCells_eq_ok_iff {l : Layout} {names : List Identifier} {cellOf : Identifier → Cell}
    {cells : List (String × Value)} :
    readCells l names (names.map cellOf) = .ok cells ↔
      (∀ name ∈ names, ∃ spec value, l.column? name = some spec ∧
        (cellOf name).toValue? spec.kind = some value) ∧
      cells = names.filterMap fun name => (l.column? name).bind fun spec =>
        ((cellOf name).toValue? spec.kind).map fun value => (name.text, value) := by
  induction names generalizing cells with
  | nil => simp [readCells, eq_comm]
  | cons name rest ih =>
    rw [List.map_cons, readCells, List.forall_mem_cons, bind_eq_ok_iff]
    simp only [bind_eq_ok_iff, readCell_eq_ok_iff, ih, pure, Except.pure, Except.ok.injEq]
    constructor
    · rintro ⟨_, ⟨spec, found, value, read, rfl⟩, _, ⟨legible, rfl⟩, rfl⟩
      refine ⟨⟨⟨spec, value, found, read⟩, legible⟩, ?_⟩
      rw [List.filterMap_cons_some (b := (name.text, value)) (by simp [found, read])]
    · rintro ⟨⟨⟨spec, value, found, read⟩, legible⟩, rfl⟩
      refine ⟨_, ⟨spec, found, value, read, rfl⟩, _, ⟨legible, rfl⟩, ?_⟩
      rw [List.filterMap_cons_some (b := (name.text, value)) (by simp [found, read])]

/-- A select answers with the projected rows if all of them are legible, and fails otherwise. -/
theorem readRows_eq_ok_iff {d : Definition} {b : Bound} {rows : List Record} {answer : List Row} :
    readRows b.template.layout b.template.projection
        (rows.map fun row => (b.template.projection.map Identifier.text).map (d.cell row)) =
          .ok answer ↔
      (∀ row ∈ rows, d.Legible b row) ∧ answer = rows.map (d.project b) := by
  induction rows generalizing answer with
  | nil => simp [readRows, eq_comm]
  | cons row rest ih =>
    have texts : (b.template.projection.map Identifier.text).map (d.cell row) =
        b.template.projection.map fun name => d.cell row name.text := List.map_map
    rw [List.map_cons, readRows, List.forall_mem_cons, bind_eq_ok_iff, texts]
    simp only [bind_eq_ok_iff, readCells_eq_ok_iff, ih, pure, Except.pure, Except.ok.injEq]
    constructor
    · rintro ⟨_, ⟨legible, rfl⟩, _, ⟨others, rfl⟩, rfl⟩
      exact ⟨⟨legible, others⟩, rfl⟩
    · rintro ⟨⟨legible, others⟩, rfl⟩
      exact ⟨_, ⟨legible, rfl⟩, _, ⟨others, rfl⟩, rfl⟩

/-! ### What the statements do -/

/-- A file in which the table of a name has other rows. -/
def File.withRows (f : File) (name : String) (r : Relation) (rows : List Record) : File :=
  { f with database := f.database.replace name { r with rows } }

theorem File.relation?_withRows {f : File} {name : String} {r : Relation}
    (found : f.database.relation? name = some r) (rows : List Record) {n : String}
    (namesAgree : sameName n name = true) :
    (f.withRows name r rows).database.relation? n = some { r with rows } := by
  have own := Database.relation?_name found
  have relationIs : f.database.relation? n = some r := by
    have names (old : Relation) :
        sameName old.definition.name n = sameName old.definition.name name := by
      rw [sameName_comm, sameName_trans namesAgree, sameName_comm]
    rw [← found]
    simp only [Database.relation?, names]
  have replaced : (f.withRows name r rows).database.relation? n = (f.database.relation? n).map
      fun old => if sameName old.definition.name name then { r with rows } else old :=
    Database.relation?_replace (r := { r with rows }) own n
  rw [replaced, relationIs, Option.map_some, if_pos own]

namespace File.Stands

variable {f : File} {session : Nat} {r : Relation} (now : Nat)

/-- A select returns the picked rows, unless one of them holds data of another kind. -/
theorem select (stands : f.Stands session b sql r) (read : b.template.kind.isRead = true)
    (plain : b.template.condition = none) (result : ResultSet) :
    (f.execute now session b).1 = .ok result ↔
      (∀ row ∈ r.rows.filter (r.definition.picks b now), r.definition.Legible b row) ∧
        result.rows = (r.rows.filter (r.definition.picks b now)).map (r.definition.project b) := by
  have writes : b.template.kind ≠ .insert := by
    intro insert
    rw [insert] at read
    cases read
  have translated := stands.translated
  rw [translate_select read plain] at translated
  cases translated
  have picked : r.rows.filter ((guardOf b.template).admits r.definition (parameters b now)) =
      r.rows.filter (r.definition.picks b now) :=
    List.filter_congr fun row _ => admits_eq_picks writes r.definition row
  have answer : ∀ rows, readAnswer b.template ⟨rows, 0⟩ =
      (readRows b.template.layout b.template.projection rows).map fun rows => ⟨rows⟩ := by
    intro rows
    cases kind : b.template.kind <;> simp [readAnswer, kind, StatementKind.isRead] at read ⊢
  rw [stands.execute now (parameters_length_guard writes now)]
  simp only [Relation.run, picked, answer]
  rw [← readRows_eq_ok_iff]
  cases readRows b.template.layout b.template.projection
      ((r.rows.filter (r.definition.picks b now)).map fun row =>
        (b.template.projection.map Identifier.text).map (r.definition.cell row)) with
  | error failure => simp [Except.map]
  | ok rows => cases result; simp [Except.map]

/-- A delete takes the picked rows away. -/
theorem delete (stands : f.Stands session b sql r)
    (delete : b.template.kind = .deleteByKey ∧ b.template.condition = none ∨
      b.template.kind = .conditionalDelete) :
    ∃ result, f.execute now session b = (.ok result, f.withRows sql.table r
        (r.rows.filter fun row => !r.definition.picks b now row)) ∧
      (b.template.kind = .conditionalDelete →
        result = .flag (r.rows.any (r.definition.picks b now))) := by
  have writes : b.template.kind ≠ .insert := by
    rcases delete with ⟨kind, -⟩ | kind <;> simp [kind]
  obtain rfl := translate_delete delete stands.translated
  have kept : (r.rows.filter fun row => !(guardOf b.template).admits r.definition
      (parameters b now) row) = r.rows.filter fun row => !r.definition.picks b now row :=
    List.filter_congr fun row _ => by rw [admits_eq_picks writes r.definition row]
  rw [stands.execute now (parameters_length_guard writes now)]
  simp only [Relation.run, kept]
  rcases delete with ⟨kind, -⟩ | kind
  · simp [readAnswer, kind, withRows]
  · have counted : decide (0 < r.rows.length -
        (r.rows.filter fun row => !r.definition.picks b now row).length) =
          r.rows.any (r.definition.picks b now) := by
      rw [Bool.eq_iff_iff, decide_eq_true_iff, Nat.sub_pos_iff_lt,
        List.length_filter_lt_length_iff_exists, List.any_eq_true]
      simp
    simp only [readAnswer, kind, counted, withRows]
    exact ⟨_, rfl, fun _ => rfl⟩

/-- A delete that binds a condition as well fails. -/
theorem delete_condition (stands : f.Stands session b sql r) (kind : b.template.kind = .deleteByKey)
    (more : b.template.condition ≠ none) : ∃ e, f.execute now session b = (.error e, f) := by
  refine stands.execute_miscounted ?_
  obtain ⟨column, condition⟩ := Option.ne_none_iff_exists'.mp more
  have values : b.values.length = b.template.filter.length + 1 := by
    rw [← b.length_values]
    simp [Template.parameterColumns, kind, condition]
  have translated := stands.translated
  simp only [translate, kind] at translated
  split at translated
  · cases translated
  · cases translated
    simp [parameters, addedParameters, kind, values, Sql.parameters, Guard.parameters]

end File.Stands

/-- The cells of the row that an insert writes. -/
def Definition.written (d : Definition) (b : Bound) (now : Nat) : Cells :=
  d.cellsOf (b.template.projection.map Identifier.text ++ [expiryColumn]) (parameters b now)

/-- An insert that succeeds appends its row, which has a number of the table or the one that is
assigned to it, in the place of those with its number or its key. -/
theorem File.Stands.insert {f : File} {session : Nat} {r : Relation}
    (stands : f.Stands session b sql r) (insert : b.template.kind = .insert) {result : ResultSet}
    (stored : (f.execute now session b).1 = .ok result) :
    r.definition.missing? (r.definition.written b now) = none ∧
      ∃ number, f.execute now session b = (.ok .empty, f.withRows sql.table r
        (r.rows.filter
          (fun old => !r.definition.replaces ⟨number, r.definition.written b now⟩ old) ++
          [⟨number, r.definition.written b now⟩])) := by
  have translated := stands.translated
  simp only [translate, insert] at translated
  cases translated
  have count : (parameters b now).length =
      (Sql.upsert b.template.layout.table.name.text
        (b.template.projection.map Identifier.text ++ [expiryColumn])).parameters := by
    have values := b.length_projection insert
    simp [parameters, addedParameters, insert, Sql.parameters, values]
  have executed := stands.execute now count
  cases ran : r.run (.upsert b.template.layout.table.name.text
      (b.template.projection.map Identifier.text ++ [expiryColumn])) (parameters b now) with
  | error e =>
    rw [ran] at executed
    rw [executed] at stored
    cases stored
  | ok outcome =>
    obtain ⟨answer, r'⟩ := outcome
    rw [ran] at executed
    obtain ⟨number, -, complete, rfl⟩ := Relation.run_upsert ran
    simp only [readAnswer, insert] at executed
    exact ⟨complete, number, executed⟩

end GroupStore.Sqlite
