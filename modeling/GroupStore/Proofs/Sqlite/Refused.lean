import GroupStore.Proofs.ReadBack
import GroupStore.Proofs.Sqlite.Start

/-!
# Preparations that are refused

A preparation is refused for the template alone, for the layout under which the session knows the
table, for the table that it would create, or in the end because the engine refuses the statement,
mostly for a column to which it assigns and which the table lacks.  By then a layout that is new to
the session has been remembered and its table created, and neither is undone.  A layout that no
statement was ever prepared under then stands in the way of every other layout of its table, for as
long as the session lives.

All other refusals leave the session and its database as they were.

* `Sqlite.Overreaches` — the preparations that remember a layout and are refused all the same;
* `Sqlite.prepare_overreaching`, `Sqlite.prepare_refused` — what a refusal leaves;
* `Sqlite.Connection.Leads.holds` — a layout that was remembered stays so;
* `Sqlite.refusal_unnoticed_iff` — whether later preparations notice the refusal;
* `Sqlite.refused_layout_stays` — a file that a session can no longer be used for.
-/

namespace GroupStore.Sqlite

/-! ### Refusals -/

/-- The definition that the table of a layout has once the layout is remembered: the one that it has
in the database, or else that of the layout. -/
def Database.definitionFor (db : Database) (l : Layout) : Definition :=
  ((db.relation? l.table.name.text).map Relation.definition).getD (.ofLayout l)

theorem translate_table {t : Template} {sql : Sql} (translated : translate t = .ok sql) :
    sql.table = t.layout.table.name.text := by
  simp only [translate] at translated
  split at translated
  · cases translated
    rfl
  · cases translated
    rfl
  · cases translated
    rfl
  · split at translated
    · cases translated
    · cases translated
      rfl
  · split at translated
    · cases translated
    · cases translated
      rfl

/-- Once the table of a layout is created, a statement on it is known exactly if its definition
admits it. -/
theorem Database.knows_of_create {db db' : Database} {l : Layout} {sql : Sql}
    (created : db.create (.ofLayout l) = .ok db') (table : sql.table = l.table.name.text) :
    db'.knows sql = (db.definitionFor l).admits sql := by
  have own : (Definition.ofLayout l).name = l.table.name.text := rfl
  rw [Database.knows, table, Database.definitionFor]
  rcases Database.create_cases created with ⟨⟨r, found⟩, rfl⟩ | ⟨absent, -, rfl⟩
  · rw [own] at found
    rw [found]
    rfl
  · rw [own] at absent
    have new : Database.relation? ⟨db.relations ++ [⟨.ofLayout l, []⟩]⟩ l.table.name.text =
        some ⟨.ofLayout l, []⟩ := by
      rw [Database.relation?] at absent ⊢
      rw [List.find?_append, absent, Option.none_or, List.find?_singleton, own, sameName_self,
        if_pos rfl]
    rw [new, absent]
    rfl

/-- A preparation that goes as far as to remember a new layout, and is refused because the table
does not admit the statement. -/
structure Overreaches (t : Template) (c : Connection) (db : Database) : Prop where
  isOpen : c.closed = false
  allowed : forbidden? t = none
  new : c.layout? t.layout.table.name = none
  creates : ∃ db', db.create (.ofLayout t.layout) = .ok db'
  lacks : ∃ sql, translate t = .ok sql ∧ (db.definitionFor t.layout).admits sql = false

variable {t : Template} {c c' : Connection} {db db' : Database} {l : Layout}

/-- The table has a name that a layout's table may have. -/
theorem Overreaches.unreserved (beyond : Overreaches t c db) :
    isReserved t.layout.table.name.text = false := by
  obtain ⟨db', created⟩ := beyond.creates
  simp only [Database.create] at created
  split at created
  · cases created
  · rename_i unreserved
    exact Bool.eq_false_iff.mpr unreserved

/-- Such a preparation leaves the layout and the table. -/
theorem prepare_overreaching (beyond : Overreaches t c db) :
    ∃ db', db.create (.ofLayout t.layout) = .ok db' ∧
      prepare t c db = (.error (Refusal.unknownName t.kind).toSessionError,
        { c with layouts := c.layouts ++ [t.layout] }, db') := by
  obtain ⟨db', created⟩ := beyond.creates
  obtain ⟨sql, translated, lacks⟩ := beyond.lacks
  have unknown : db'.knows sql = false := by
    rw [Database.knows_of_create created (translate_table translated)]
    exact lacks
  refine ⟨db', created, ?_⟩
  simp only [prepare, beyond.allowed, translated, beyond.isOpen, Connection.register, beyond.new,
    created, unknown, Bool.false_eq_true, if_false]

/-- Every other refusal leaves the session and its database as they were. -/
theorem prepare_refused {e : SessionError} (refused : (prepare t c db).1 = .error e)
    (within : ¬Overreaches t c db) : (prepare t c db).2 = (c, db) := by
  rcases prepare_steps t c db with
    ⟨e', refuses⟩ | ⟨sql, c', db', allowed, translated, isOpen, registered, run⟩
  · rw [refuses]
  · obtain ⟨-, ⟨rfl, rfl⟩ | ⟨new, -, created⟩⟩ := Connection.register_cases registered
    · rw [run]
    · refine absurd ⟨isOpen, allowed, new, ⟨db', created⟩, sql, translated, ?_⟩ within
      rw [← Database.knows_of_create created (translate_table translated)]
      rw [run] at refused
      cases known : db'.knows sql with
      | false => rfl
      | true =>
        rw [known] at refused
        cases refused

/-! ### Later preparations -/

/-- A session goes on, whatever is prepared on whatever database, until it is closed or further.
Nothing else that is asked of a session changes what it remembers. -/
inductive Connection.Leads (c : Connection) : Connection → Prop where
  | refl : Leads c c
  | prepare {c' : Connection} (before : Leads c c') (t : Template) (db : Database) :
      Leads c (Sqlite.prepare t c' db).2.1
  | close {c' : Connection} (before : Leads c c') : Leads c (Sqlite.close c')

/-- A preparation forgets no layout. -/
theorem Connection.Holds.kept (held : c.Holds l) (t : Template) (db : Database) :
    (prepare t c db).2.1.Holds l := by
  rcases prepare_cases t c db with ⟨e, refuses⟩ | ⟨c', db', registered, left, -⟩
  · rw [refuses]
    exact held
  · rw [left]
    obtain ⟨-, ⟨rfl, -⟩ | ⟨-, rfl, -⟩⟩ := Connection.register_cases registered
    · exact held
    · rw [Connection.Holds, Connection.layout?] at held ⊢
      rw [List.find?_append, held, Option.some_or]

/-- A session that goes on forgets no layout. -/
theorem Connection.Leads.holds (leads : c.Leads c') (held : c.Holds l) : c'.Holds l := by
  induction leads with
  | refl => exact held
  | prepare before t db ih => exact ih.kept t db
  | close before ih => exact ih

/-- Under another layout than the one remembered, nothing is prepared for a table. -/
theorem prepare_other (held : c.Holds l) (nameEq : t.layout.table.name = l.table.name)
    (other : t.layout ≠ l) (db : Database) : ∃ e, (prepare t c db).1 = .error e := by
  rcases prepare_steps t c db with ⟨e, refused⟩ | ⟨sql, c', db', -, -, -, registered, -⟩
  · exact ⟨e, by rw [refused]⟩
  · have known : c.layout? l.table.name = some l := held
    simp only [Connection.register, nameEq, known, if_neg other.symm] at registered
    cases registered

/-- The refusal, if nothing else is wrong. -/
theorem prepare_otherLayout (isOpen : c.closed = false) (allowed : forbidden? t = none) {sql : Sql}
    (translated : translate t = .ok sql) (known : c.layout? t.layout.table.name = some l)
    (other : t.layout ≠ l) (db : Database) :
    (prepare t c db).1 = .error (Refusal.otherLayout t.layout.table.name).toSessionError := by
  simp only [prepare, allowed, translated, isOpen, Connection.register, known, if_neg other.symm,
    Bool.false_eq_true, if_false]

/-! ### Whether a refusal is noticed -/

/-- The table of a layout without faults is there or created, unless its own name is reserved. -/
theorem Database.create_ok (unreserved : isReserved l.table.name.text = false)
    (sound : (Definition.ofLayout l).Sound) (db : Database) :
    ∃ db', db.create (.ofLayout l) = .ok db' := by
  have own : (Definition.ofLayout l).name = l.table.name.text := rfl
  rw [Database.create, own, unreserved, if_neg Bool.false_ne_true]
  cases db.relation? l.table.name.text with
  | some r => exact ⟨db, if_neg sound.keyed⟩
  | none => exact ⟨_, by rw [(Definition.fault?_eq_none_iff _).mpr sound]⟩

/-- An insert of a layout with one column, which is its key. -/
def bareInsert (table : TableName) (key : Identifier) : Template where
  kind := .insert
  layout := ⟨table, [⟨key, .text⟩], []⟩
  projection := []
  filter := []
  condition := none
  ttlSeconds := none
  consistency := .one

/-- For every template that overreaches there is one for the same table under another layout that a
session without the layout would look at. -/
theorem Overreaches.exists_other (beyond : Overreaches t c db) :
    ∃ t' : Template, t'.layout.table = t.layout.table ∧ t'.layout ≠ t.layout ∧ t'.kind = .insert ∧
      forbidden? t' = none ∧ ∃ db', db.create (.ofLayout t'.layout) = .ok db' := by
  have plain : t.layout.table.keyspace.isSome = false := by
    have allowed := beyond.allowed
    simp only [forbidden?] at allowed
    split at allowed
    · cases allowed
    · rename_i plain
      exact Bool.eq_false_iff.mpr plain
  have probe (key : Identifier) (differs : (bareInsert t.layout.table key).layout ≠ t.layout)
      (visible : caseless key.text ≠ caseless expiryColumn) :
      ∃ t' : Template, t'.layout.table = t.layout.table ∧ t'.layout ≠ t.layout ∧
        t'.kind = .insert ∧ forbidden? t' = none ∧
        ∃ db', db.create (.ofLayout t'.layout) = .ok db' := by
    have sound : (Definition.ofLayout (bareInsert t.layout.table key).layout).Sound := by
      refine ⟨?_, show 2 ≤ maxColumns by decide, by simp [Definition.ofLayout, bareInsert],
        declared_ofLayout (bareInsert t.layout.table key).layout⟩
      show List.Nodup [caseless key.text, caseless expiryColumn]
      simp [visible]
    have shown : (key.text == expiryColumn) = false :=
      beq_eq_false_iff_ne.mpr fun isExpiry => visible (congrArg caseless isExpiry)
    refine ⟨bareInsert t.layout.table key, rfl, differs, rfl, ?_,
      Database.create_ok (l := (bareInsert t.layout.table key).layout) beyond.unreserved sound db⟩
    simp only [forbidden?, bareInsert, Layout.columns, List.append_nil, List.any_cons, List.any_nil,
      Bool.or_false, plain, shown, Bool.false_eq_true, if_false]
  by_cases bare : (bareInsert t.layout.table defaultKeyColumn).layout = t.layout
  · refine probe defaultExchangeIdColumn ?_ (by decide +kernel)
    rw [← bare]
    simp only [bareInsert, ne_eq, Layout.mk.injEq, List.cons.injEq, ColumnSpec.mk.injEq, and_true,
      true_and]
    decide +kernel
  · exact probe defaultKeyColumn bare (by decide +kernel)

theorem Overreaches.remembered (beyond : Overreaches t c db) :
    (prepare t c db).2.1.Holds t.layout := by
  obtain ⟨db', -, left⟩ := prepare_overreaching beyond
  have new := beyond.new
  rw [Connection.layout?] at new
  rw [left, Connection.Holds, Connection.layout?, List.find?_append, new]
  simp

/-- A refusal that overreaches is noticed by some later preparation. -/
theorem Overreaches.noticed (beyond : Overreaches t c db) :
    ∃ t', (prepare t' (prepare t c db).2.1 (prepare t c db).2.2).1 ≠ (prepare t' c db).1 := by
  obtain ⟨t', table, other, insert, allowed, db', created⟩ := beyond.exists_other
  obtain ⟨sql, translated⟩ : ∃ sql, translate t' = .ok sql := ⟨_, by rw [translate, insert]⟩
  have isOpen : (prepare t c db).2.1.closed = false := by
    obtain ⟨db', -, left⟩ := prepare_overreaching beyond
    rw [left]
    exact beyond.isOpen
  have known : (prepare t c db).2.1.layout? t'.layout.table.name = some t.layout := by
    rw [table]
    exact beyond.remembered
  have new : c.layout? t'.layout.table.name = none := by
    rw [table]
    exact beyond.new
  have after := prepare_otherLayout isOpen allowed translated known other (prepare t c db).2.2
  have before : (prepare t' c db).1 = if db'.knows sql then .ok ⟨t', sql.text⟩
      else .error (Refusal.unknownName .insert).toSessionError := by
    simp only [prepare, allowed, translated, beyond.isOpen, Connection.register, new, created,
      insert, Bool.false_eq_true, if_false]
    split <;> rfl
  refine ⟨t', ?_⟩
  rw [after, before]
  split
  · intro clash
    cases clash
  · -- One message begins with the table and the other with the kind of the statement.
    intro errorEq
    have words := SessionError.prepare.inj (Except.error.inj errorEq)
    have first := congrArg (fun words => words.toList.head?) words
    simp [StatementKind.label] at first

/-- What a refusal leaves, and whether any later preparation replies differently for it.  The
session and its database are as they were, and every later preparation replies as if the refused one
had not been asked for, exactly unless it overreached.  Then its layout is remembered, and as long
as the session lives, whatever is done with it and whatever becomes of the database, nothing is
prepared for the table under any other layout. -/
theorem refusal_unnoticed_iff (t : Template) (c : Connection) (db : Database) {e : SessionError}
    (refused : (prepare t c db).1 = .error e) :
    ((prepare t c db).2 = (c, db) ↔ ¬Overreaches t c db) ∧
    ((∀ t', (prepare t' (prepare t c db).2.1 (prepare t c db).2.2).1 = (prepare t' c db).1) ↔
      ¬Overreaches t c db) ∧
    (Overreaches t c db →
      (prepare t c db).2.1.layouts = c.layouts ++ [t.layout] ∧
      ∀ c', (prepare t c db).2.1.Leads c' → ∀ t' db',
        t'.layout.table.name = t.layout.table.name → t'.layout ≠ t.layout →
          ∃ e', (prepare t' c' db').1 = .error e') := by
  refine ⟨⟨fun unchanged beyond => ?_, prepare_refused refused⟩,
    ⟨fun answersEq beyond => ?_, fun within t' => ?_⟩, fun beyond => ?_⟩
  · obtain ⟨db', -, left⟩ := prepare_overreaching beyond
    rw [left] at unchanged
    have layouts := congrArg (fun left => left.1.layouts.length) unchanged
    simp at layouts
  · obtain ⟨t', noticed⟩ := beyond.noticed
    exact noticed (answersEq t')
  · rw [prepare_refused refused within]
  · obtain ⟨db', -, left⟩ := prepare_overreaching beyond
    refine ⟨by rw [left], fun c' leads t' db' nameEq other => ?_⟩
    exact prepare_other (leads.holds beyond.remembered) nameEq other db'

/-- A statement of a narrow schema overreaches exactly if it is the first of its table that the
session looks at, the table is in the database already, and it has no place for something to which
the statement assigns. -/
theorem overreaches_template_iff {s : Schema} (narrow : s.Narrow) {kind : StatementKind} :
    Overreaches (s.template kind) c db ↔
      c.closed = false ∧ forbidden? (s.template kind) = none ∧
        c.layout? s.settings.table.name = none ∧ isReserved s.settings.table.name.text = false ∧
        ∃ r, db.relation? s.settings.table.name.text = some r ∧
          ∃ column, r.definition.unknown? (s.sql kind) = some column := by
  have own : (Definition.ofLayout s.layout).name = s.settings.table.name.text := rfl
  have keyed : (Definition.ofLayout s.layout).key ≠ [] := by
    simp [Definition.ofLayout, s.layout_primaryKey]
  have admits (d : Definition) : d.admits (s.sql kind) = (d.unknown? (s.sql kind)).isNone := by
    rw [Definition.admits, s.isReadable_sql narrow, Bool.true_and]
  constructor
  · intro beyond
    obtain ⟨sql, translated, lacks⟩ := beyond.lacks
    rw [s.translate_template] at translated
    cases translated
    rw [s.template_layout, Database.definitionFor,
      show s.layout.table = s.settings.table from rfl, admits] at lacks
    have new := beyond.new
    rw [s.template_layout] at new
    refine ⟨beyond.isOpen, beyond.allowed, new, ?_, ?_⟩
    · have unreserved := beyond.unreserved
      rw [s.template_layout] at unreserved
      exact unreserved
    · cases found : db.relation? s.settings.table.name.text with
      | none =>
        rw [found] at lacks
        have known : Definition.unknown? (.ofLayout s.layout) (s.sql kind) = none :=
          s.unknown?_sql kind
        rw [Option.map_none, Option.getD_none, known] at lacks
        cases lacks
      | some r =>
        rw [found, Option.map_some, Option.getD_some, Option.isNone_eq_false_iff,
          Option.isSome_iff_exists] at lacks
        exact ⟨r, rfl, lacks⟩
  · rintro ⟨isOpen, allowed, new, unreserved, r, found, column, lacks⟩
    refine ⟨isOpen, allowed, ?_, ⟨db, ?_⟩, s.sql kind, s.translate_template kind, ?_⟩
    · rw [s.template_layout]
      exact new
    · rw [s.template_layout, Database.create, own, unreserved, found]
      exact if_neg keyed
    · rw [s.template_layout, Database.definitionFor,
        show s.layout.table = s.settings.table from rfl, found, Option.map_some, Option.getD_some,
        admits, lacks]
      rfl

/-! ### A session that is spoilt -/

/-- The schema of the plain repository, on the same table, with another name for the group
column. -/
def renamedSchema : Schema :=
  ⟨{ table := Repository.resultsTable, keyColumn := Repository.tenantColumn }, rfl⟩

/-- A database in which the plain repository has made its table. -/
def plainDatabase : Database := ⟨[⟨plainRepository.schema.definition, []⟩]⟩

/-- A session that has prepared the plain repository refuses the other layout and stays as it is. -/
theorem refusal_unnoticed_plain :
    let c : Connection := ⟨[plainRepository.schema.layout], false⟩
    let t := renamedSchema.template .insert
    (∃ e, (prepare t c plainDatabase).1 = .error e) ∧ ¬Overreaches t c plainDatabase ∧
      (prepare t c plainDatabase).2 = (c, plainDatabase) := by
  intro c t
  have refused := prepare_otherLayout (t := t) (c := c) (l := plainRepository.schema.layout) rfl
    (by decide +kernel) (renamedSchema.translate_template .insert) (by decide +kernel)
    (by decide +kernel) plainDatabase
  have within : ¬Overreaches t c plainDatabase :=
    fun beyond => absurd beyond.new (by decide +kernel)
  exact ⟨⟨_, refused⟩, within,
    (refusal_unnoticed_iff t c plainDatabase refused).1.mpr within⟩

/-- On a fresh session over the same database the other layout is refused as well, for its group
column; but it stays, and the plain repository, which the session would have served, is refused
from then on. -/
theorem refused_layout_stays :
    let t := renamedSchema.template .insert
    let left := (prepare t .fresh plainDatabase).2
    (prepare t .fresh plainDatabase).1 = .error (Refusal.unknownName .insert).toSessionError ∧
      left = (⟨[renamedSchema.layout], false⟩, plainDatabase) ∧
      (∃ p, (prepare (plainRepository.schema.template .insert) .fresh plainDatabase).1 = .ok p) ∧
      (prepare (plainRepository.schema.template .insert) left.1 left.2).1 =
        .error (Refusal.otherLayout Repository.resultsTable.name).toSessionError := by
  intro t left
  have found :
      plainDatabase.relation? "results" = some ⟨plainRepository.schema.definition, []⟩ := by
    decide +kernel
  have beyond : Overreaches t .fresh plainDatabase :=
    (overreaches_template_iff (by decide)).mpr
      ⟨rfl, by decide +kernel, rfl, by decide +kernel, _, found,
      "tenant", by decide +kernel⟩
  obtain ⟨db, created, run⟩ := prepare_overreaching beyond
  obtain rfl : plainDatabase = db := by
    rcases Database.create_cases created with ⟨-, databaseEq⟩ | ⟨absent, -⟩
    · exact databaseEq.symm
    · rw [show (Definition.ofLayout t.layout).name = "results" from rfl, found] at absent
      cases absent
  have left' : left = (⟨[renamedSchema.layout], false⟩, plainDatabase) := by
    rw [show left = _ from congrArg Prod.snd run]
    rfl
  let plain := plainRepository.schema.template .insert
  have served : (prepare plain .fresh plainDatabase).1.toBool = true := by decide +kernel
  refine ⟨congrArg Prod.fst run, left', ?_, ?_⟩
  · show ∃ p, (prepare plain .fresh plainDatabase).1 = .ok p
    cases answer : (prepare plain .fresh plainDatabase).1 with
    | ok p => exact ⟨p, rfl⟩
    | error e =>
      rw [answer] at served
      cases served
  · rw [left']
    exact prepare_otherLayout (l := renamedSchema.layout) rfl (by decide +kernel)
      (plainRepository.schema.translate_template .insert) (by decide +kernel) (by decide +kernel)
      plainDatabase

end GroupStore.Sqlite
