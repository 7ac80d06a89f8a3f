import GroupStore.Proofs.Sqlite.Execution
import GroupStore.Proofs.Replies

/-!
# One database session as a host

A session over a database answers the requests of programs.  Tables whose names differ beyond case
do not touch each other, and a table that was created for a layout keeps its definition.

* `Sqlite.host` — the host; its clock stands still;
* `Sqlite.Moment.Sound` — every table was prepared by the session and has the rows of some keys and
  versions;
* `Sqlite.host_keeps` — it keeps contents for every prepared schema whose moments of expiry fit.
-/

namespace GroupStore.Sqlite

/-- A session, its database and the reading of its clock. -/
structure Moment where
  connection : Connection
  database : Database
  now : Nat

variable {S : Type}

/-- The answers of a session while its clock stands still; a world answers so for each of its
database sessions whose changes can be made, by `World.Open.prepare` and `World.Open.execute`. -/
def host (self : S) : Host Moment S where
  connect w := (.ok self, w)
  prepare _ t w :=
    let after := prepare t w.connection w.database
    (after.1, { w with connection := after.2.1, database := after.2.2 })
  execute _ b w :=
    let after := execute b w.now w.connection w.database
    (after.1, { w with database := after.2 })
  close _ w := (.ok (), { w with connection := close w.connection })
  record _ w := w

/-! ### Tables of a database -/

theorem Database.relation?_name {db : Database} {name : String} {r : Relation}
    (h : db.relation? name = some r) : sameName r.definition.name name = true :=
  List.find?_some (p := fun r : Relation => sameName r.definition.name name) h

theorem Database.relation?_replace {db : Database} {name : String} {r : Relation}
    (own : sameName r.definition.name name = true) (n : String) :
    (db.replace name r).relation? n = (db.relation? n).map fun old =>
      if sameName old.definition.name name then r else old := by
  unfold Database.replace Database.relation?
  generalize db.relations = relations
  induction relations with
  | nil => rfl
  | cons old rest ih =>
    have unrenamed :
        sameName (if sameName old.definition.name name then r else old).definition.name n =
        sameName old.definition.name n := by
      by_cases h : sameName old.definition.name name = true
      · rw [if_pos h, sameName_trans own, sameName_trans h]
      · rw [if_neg h]
    simp only [List.map_cons, List.find?_cons, unrenamed]
    cases sameName old.definition.name n with
    | true => rfl
    | false => exact ih

/-! ### Sound sessions -/

/-- The rows of each table. -/
abbrev Entries := TableName → List (List Value × Version)

/-- What the tables hold at a clock reading. -/
def Entries.contents (entries : Entries) (now : Nat) : Contents := fun table =>
  liveVersions (entries table) now

/-- Change the rows of one table. -/
def Entries.set (entries : Entries) (table : TableName) (rows : List (List Value × Version)) :
    Entries :=
  fun name => if name = table then rows else entries name

theorem Entries.contents_set (entries : Entries) (table : TableName)
    (rows : List (List Value × Version)) (now : Nat) :
    (entries.set table rows).contents now =
      (entries.contents now).withTable table (liveVersions rows now) := by
  funext name key
  by_cases own : name = table
  · simp only [contents, set, Contents.withTable, if_pos own]
  · simp only [contents, set, Contents.withTable, if_neg own]

/-- What the tables hold later is what is left then of what they hold now. -/
theorem Entries.contents_later (entries : Entries) {now later : Nat} (order : now ≤ later)
    (table : TableName) (key : List Value) :
    entries.contents later table key = (entries.contents now table key).filter (·.liveAt later) :=
  (Version.filter_later order _).symm

/-- Two tables are one, or their names differ beyond case. -/
def Apart (a b : TableName) : Prop := a = b ∨ sameName a.name.text b.name.text = false

/-- A layout under which the session prepared a table. -/
def Connection.Holds (c : Connection) (l : Layout) : Prop := c.layout? l.table.name = some l

theorem Connection.layout?_table {c : Connection} {name : Identifier} {l : Layout}
    (h : c.layout? name = some l) : l.table.name = name := by
  simpa using List.find?_some h

/-- An open session that prepared every table of its database, each for an unqualified name of its
own, and the rows of the tables. -/
structure Moment.Sound (w : Moment) (entries : Entries) : Prop where
  isOpen : w.connection.closed = false
  prepared : ∀ l, w.connection.Holds l → l.table.keyspace = none ∧ ∃ s r, s.layout = l ∧
    w.database.relation? l.table.name.text = some r ∧ r.SoundFor s (entries l.table)
  created : ∀ name r, w.database.relation? name = some r →
    ∃ l, w.connection.Holds l ∧ sameName l.table.name.text name = true
  apart : ∀ l l', w.connection.Holds l → w.connection.Holds l' → Apart l.table l'.table
  unused : ∀ table, (∀ l, w.connection.Holds l → l.table ≠ table) → entries table = []

/-- A session just opened over an empty database. -/
theorem sound_initial (now : Nat) : Moment.Sound ⟨.fresh, .empty, now⟩ fun _ => [] where
  isOpen := rfl
  prepared := fun _ held => by cases held
  created := fun _ _ found => by cases found
  apart := fun _ _ held => by cases held
  unused := fun _ _ => rfl

/-- Time alone does not touch tables. -/
theorem Moment.Sound.later {w : Moment} {entries : Entries} (sound : w.Sound entries)
    (delay : Nat) : Moment.Sound { w with now := w.now + delay } entries :=
  ⟨sound.isOpen, sound.prepared, sound.created, sound.apart, sound.unused⟩

/-- The table of a schema that was prepared. -/
theorem Moment.Sound.relation {w : Moment} {entries : Entries} (sound : w.Sound entries)
    {s : Schema} (held : w.connection.Holds s.layout) :
    ∃ r, w.database.relation? s.settings.table.name.text = some r ∧
      r.SoundFor s (entries s.settings.table) := by
  obtain ⟨-, s', r, layout, found, good⟩ := sound.prepared s.layout held
  exact ⟨r, found, good.of_layout layout⟩

/-- Rows put into the table of a prepared schema leave the other tables alone. -/
theorem Moment.Sound.replace {w : Moment} {entries : Entries} (sound : w.Sound entries)
    {s : Schema} (held : w.connection.Holds s.layout) {r : Relation}
    {rows : List (List Value × Version)} (good : r.SoundFor s rows) :
    Moment.Sound { w with database := w.database.replace s.settings.table.name.text r }
      (entries.set s.settings.table rows) := by
  have own : sameName r.definition.name s.settings.table.name.text = true := by
    rw [good.definition]
    exact sameName_self _
  refine ⟨sound.isOpen, fun l known => ?_, fun name r' found => ?_, sound.apart,
    fun table unheld => ?_⟩
  · obtain ⟨plain, s', old, layout, found, before⟩ := sound.prepared l known
    have name := Database.relation?_name found
    refine ⟨plain, ?_⟩
    rw [Database.relation?_replace own, found, Option.map_some, sameName_trans name]
    rcases sound.apart l s.layout known held with tableEq | differ
    · have tableEq : l.table = s.settings.table := tableEq
      refine ⟨s, r, ?_, ?_, ?_⟩
      · have both := held
        rw [Connection.Holds, show s.layout.table = s.settings.table from rfl, ← tableEq,
          known] at both
        exact (Option.some.inj both).symm
      · rw [tableEq, if_pos (sameName_self _)]
      · rw [Entries.set, if_pos tableEq]
        exact good
    · have other : l.table ≠ s.settings.table := by
        intro tableEq
        rw [show s.layout.table = s.settings.table from rfl, tableEq, sameName_self] at differ
        cases differ
      refine ⟨s', old, layout, ?_, ?_⟩
      · exact congrArg some (if_neg (Bool.eq_false_iff.mp differ))
      · rw [Entries.set, if_neg other]
        exact before
  · rw [Database.relation?_replace own] at found
    obtain ⟨old, before, -⟩ := Option.map_eq_some_iff.mp found
    exact sound.created name old before
  · rw [Entries.set, if_neg fun tableEq => unheld s.layout held tableEq.symm]
    exact sound.unused table unheld

/-! ### Executing -/

/-- Every statement has as many parameters as are passed to it. -/
theorem parameters_length {s : Schema} {b : Bound} {kind : StatementKind}
    (hb : b.template = s.template kind) (now : Nat) :
    (parameters b now).length = (s.sql kind).parameters := by
  have values : b.values.length = (s.parameterSpecs kind).length := by
    simpa using congrArg List.length (Bound.kinds_eq hb)
  have columns : s.columns.length = s.layout.columns.length := by
    rw [← s.layout_columns_names, List.length_map]
  rw [parameters, List.length_append, List.length_map, values, addedParameters, hb, s.template_kind]
  cases kind <;>
    simp [Schema.parameterSpecs, Schema.sql, Sql.parameters, Guard.parameters, columnNames, columns,
      Schema.conditionSpecs]

/-- A statement that was translated stands for its SQL. -/
theorem sqlOf_template {s : Schema} {p : Prepared} {kind : StatementKind}
    (hp : p.template = s.template kind) (native : p.native = (s.sql kind).text) :
    sqlOf p = .ok (s.sql kind) := by
  simp only [sqlOf, hp, s.translate_template, native, if_true]

/-- What a session prepares from a template of a schema. -/
def preparedOf (s : Schema) (kind : StatementKind) : Prepared :=
  ⟨s.template kind, (s.sql kind).text⟩

theorem sqlOf_preparedOf (s : Schema) (kind : StatementKind) :
    sqlOf (preparedOf s kind) = .ok (s.sql kind) := sqlOf_template rfl rfl

/-- A statement with the text of its SQL has all names in quotes. -/
theorem unresolved?_own (db : Database) (table : String) {p : Prepared} {sql : Sql}
    (native : p.native = sql.text) : db.unresolved? table (bareNames p sql) = none := by
  rw [bareNames, if_pos native.symm, Database.unresolved?]
  cases db.relation? table <;> rfl

/-- A session executes the statements of a prepared schema as they mean. -/
theorem Moment.Sound.execute {w : Moment} {entries : Entries} (sound : w.Sound entries) {s : Schema}
    (held : w.connection.Holds s.layout) {b : Bound} {kind : StatementKind}
    (hb : b.template = s.template kind) (native : b.statement.native = (s.sql kind).text)
    (inTime : InTime s w.now) :
    ∃ answer db entries', execute b w.now w.connection w.database = (.ok answer, db) ∧
      Moment.Sound { w with database := db } entries' ∧
      s.Means False w.now (entries.contents w.now) kind b.values answer
        (entries'.contents w.now) := by
  obtain ⟨r, found, good⟩ := sound.relation held
  obtain ⟨raw, r', rows, answer, run, read, good', means⟩ :=
    good.execute (c := entries.contents w.now) (fun _ => rfl) hb inTime
  refine ⟨answer, w.database.replace s.settings.table.name.text r',
    entries.set s.settings.table rows, ?_, sound.replace held good', ?_⟩
  · have ran : w.database.run (s.sql kind) (parameters b w.now) =
        .ok (raw, w.database.replace s.settings.table.name.text r') := by
      simp only [Database.run, s.sql_table, found, good.definition, s.unknown?_sql,
        parameters_length hb, if_true, run]
    have bound : runBound b w.now w.database =
        .ok (answer, w.database.replace s.settings.table.name.text r') := by
      simp only [runBound, sqlOf_template hb native, unresolved?_own _ _ native, ran, read]
      rfl
    rw [Sqlite.execute, if_neg (by rw [sound.isOpen]; exact Bool.false_ne_true), bound]
  · rw [Entries.contents_set]
    exact means

/-- A sound session at a certain reading, and its contents. -/
structure Follows (c : Connection) (now : Nat) (w : Moment) (contents : Contents) : Prop where
  clock : w.now = now
  connection : w.connection = c
  holds : ∃ entries, w.Sound entries ∧ entries.contents now = contents

theorem host_keeps (self : S) {c : Connection} {s : Schema} (held : c.Holds s.layout) {now : Nat}
    (inTime : InTime s now) :
    (host self).Keeps s (fun kind p => p.native = (s.sql kind).text) False now (Follows c now) where
  execute := by
    rintro - b kind w contents ⟨rfl, rfl, entries, sound, rfl⟩ hb native
    obtain ⟨answer, db, entries', run, sound', means⟩ := sound.execute held hb native inTime
    refine ⟨answer, { w with database := db }, _, ?_, ⟨rfl, rfl, entries', sound', rfl⟩, means⟩
    simp only [host, run]
  record := fun _ _ _ good => good

end GroupStore.Sqlite
