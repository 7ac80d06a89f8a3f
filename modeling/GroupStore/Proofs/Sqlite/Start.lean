import GroupStore.Proofs.Sqlite.Host
import GroupStore.Proofs.Start

/-!
# Starting a repository on a database session

The first statement of a schema creates its table unless it is there, the others find it.  Tables
that differ beyond case are left alone.

* `Sqlite.prepare_steps`, `Sqlite.prepare_cases` — what a preparation does;
* `Sqlite.Moment.Gains` — what preparing a layout leaves;
* `Sqlite.Nameable`, `Sqlite.Creatable` — schemas whose table a database can have;
* `Sqlite.Moment.Ready` — a session that prepares all statements of a schema;
* `Sqlite.start_leaves` — what a successful start leaves;
* `Sqlite.start_ok` — when a start succeeds.
-/

namespace GroupStore.Sqlite

variable {S : Type}

/-! ### Preparing -/

/-- A table is there, or it is created under a definition without faults. -/
theorem Database.create_cases {db db' : Database} {d : Definition}
    (created : db.create d = .ok db') :
    ((∃ r, db.relation? d.name = some r) ∧ db' = db) ∨
      (db.relation? d.name = none ∧ d.Sound ∧ db' = ⟨db.relations ++ [⟨d, []⟩]⟩) := by
  unfold Database.create at created
  split at created
  · cases created
  · split at created
    · rename_i r found
      split at created
      · cases created
      · exact .inl ⟨⟨r, found⟩, (Except.ok.inj created).symm⟩
    · rename_i absent
      split at created
      · cases created
      · rename_i faultless
        exact .inr ⟨absent, d.fault?_eq_none_iff.mp faultless, (Except.ok.inj created).symm⟩

/-- A layout is remembered already, or it is now and its table is there or created. -/
theorem Connection.register_cases {c c' : Connection} {l : Layout} {db db' : Database}
    (registered : c.register l db = .ok (c', db')) :
    c'.layout? l.table.name = some l ∧ ((c' = c ∧ db' = db) ∨
      (c.layout? l.table.name = none ∧ c' = { c with layouts := c.layouts ++ [l] } ∧
        db.create (.ofLayout l) = .ok db')) := by
  unfold Connection.register at registered
  split at registered
  · rename_i known found
    split at registered
    · rename_i layoutEq
      cases registered
      exact ⟨layoutEq ▸ found, .inl ⟨rfl, rfl⟩⟩
    · cases registered
  · rename_i absent
    split at registered
    · rename_i made created
      cases registered
      refine ⟨?_, .inr ⟨absent, rfl, created⟩⟩
      have before : c.layouts.find? (fun k => decide (k.table.name = l.table.name)) = none := absent
      simp only [Connection.layout?, List.find?_append, before, List.find?_singleton, decide_true,
        if_true, Option.none_or]
    · cases registered

/-- A preparation is refused with nothing done, or the layout is registered and the database asked
whether it knows the statement. -/
theorem prepare_steps (t : Template) (c : Connection) (db : Database) :
    (∃ e, prepare t c db = (.error e, c, db)) ∨
      ∃ sql c' db', forbidden? t = none ∧ translate t = .ok sql ∧ c.closed = false ∧
        c.register t.layout db = .ok (c', db') ∧
        prepare t c db = (if db'.knows sql then .ok ⟨t, sql.text⟩
          else .error (Refusal.unknownName t.kind).toSessionError, c', db') := by
  unfold prepare
  split
  · exact .inl ⟨_, rfl⟩
  · rename_i allowed
    split
    · exact .inl ⟨_, rfl⟩
    · rename_i sql translated
      split
      · exact .inl ⟨_, rfl⟩
      · rename_i isOpen
        split
        · exact .inl ⟨_, rfl⟩
        · rename_i c' db' registered
          refine .inr ⟨sql, c', db', allowed, translated, Bool.eq_false_iff.mpr isOpen, registered,
            ?_⟩
          split <;> rfl

/-- A preparation leaves what it found, or what registering the layout leaves; only then may it
succeed, with a statement that the database knows. -/
theorem prepare_cases (t : Template) (c : Connection) (db : Database) :
    (∃ e, prepare t c db = (.error e, c, db)) ∨
      ∃ c' db', c.register t.layout db = .ok (c', db') ∧ (prepare t c db).2 = (c', db') ∧
        ∀ p, (prepare t c db).1 = .ok p →
          ∃ sql, translate t = .ok sql ∧ p = ⟨t, sql.text⟩ ∧ db'.knows sql = true := by
  rcases prepare_steps t c db with refused | ⟨sql, c', db', -, translated, -, registered, run⟩
  · exact .inl refused
  · refine .inr ⟨c', db', registered, by rw [run], fun p prepared => ?_⟩
    rw [run] at prepared
    split at prepared
    · rename_i known
      exact ⟨sql, translated, (Except.ok.inj prepared).symm, known⟩
    · cases prepared

/-! ### Preparing the statements of a schema -/

theorem Apart.symm {a b : TableName} (h : Apart a b) : Apart b a :=
  h.elim (fun equal => .inl equal.symm) fun differ => .inr ((sameName_comm _ _).trans differ)

/-- What preparing a layout leaves: it is held besides the others, and the rows are the same. -/
structure Moment.Gains (w w' : Moment) (entries : Entries) (l : Layout) : Prop where
  clock : w'.now = w.now
  sound : w'.Sound entries
  holds : ∀ l', w'.connection.Holds l' ↔ w.connection.Holds l' ∨ l' = l

section Prepare

variable {w : Moment} {entries : Entries} {s : Schema}

theorem Moment.Gains.refl (sound : w.Sound entries) {l : Layout} (held : w.connection.Holds l) :
    w.Gains w entries l where
  clock := rfl
  sound := sound
  holds := fun _ => ⟨.inl, fun h => h.elim id fun layoutEq => layoutEq ▸ held⟩

/-- A table that the session has not prepared is unknown to the database as well. -/
theorem Moment.Sound.relation?_eq_none (sound : w.Sound entries)
    (apart : ∀ l, w.connection.Holds l → Apart l.table s.settings.table)
    (new : w.connection.layout? s.settings.table.name = none) :
    w.database.relation? s.settings.table.name.text = none := by
  cases found : w.database.relation? s.settings.table.name.text with
  | none => rfl
  | some r =>
    obtain ⟨l, known, name⟩ := sound.created _ r found
    rcases apart l known with tableEq | differ
    · rw [Connection.Holds, tableEq, new] at known
      cases known
    · rw [name] at differ
      cases differ

/-- A table just created under a layout that nobody has prepared. -/
theorem Moment.Sound.create (sound : w.Sound entries)
    (apart : ∀ l, w.connection.Holds l → Apart l.table s.settings.table)
    (new : w.connection.layout? s.settings.table.name = none)
    (plain : s.settings.table.keyspace = none) (distinct : s.definition.Distinct) :
    w.Gains ⟨{ w.connection with layouts := w.connection.layouts ++ [s.layout] },
      ⟨w.database.relations ++ [⟨s.definition, []⟩]⟩, w.now⟩ entries s.layout := by
  have layouts (name : Identifier) :
      Connection.layout? { w.connection with layouts := w.connection.layouts ++ [s.layout] } name =
        (w.connection.layout? name).or
          (if s.settings.table.name = name then some s.layout else none) := by
    simp only [Connection.layout?, List.find?_append, List.find?_singleton, decide_eq_true_eq]
    rfl
  have relations (name : String) :
      Database.relation? ⟨w.database.relations ++ [⟨s.definition, []⟩]⟩ name =
        (w.database.relation? name).or
          (if sameName s.settings.table.name.text name then some ⟨s.definition, []⟩ else none) := by
    simp only [Database.relation?, List.find?_append, List.find?_singleton]
    rfl
  have absent := sound.relation?_eq_none apart new
  have holds (l : Layout) :
      Connection.Holds { w.connection with layouts := w.connection.layouts ++ [s.layout] } l ↔
        w.connection.Holds l ∨ l = s.layout := by
    rw [Connection.Holds, layouts]
    constructor
    · intro found
      rcases Option.or_eq_some_iff.mp found with old | ⟨-, own⟩
      · exact .inl old
      · split at own
        · exact .inr (Option.some.inj own).symm
        · cases own
    · rintro (old | rfl)
      · rw [old, Option.some_or]
      · rw [show s.layout.table.name = s.settings.table.name from rfl, new, Option.none_or,
          if_pos rfl]
  refine ⟨rfl,
    ⟨sound.isOpen, fun l known => ?_, fun name r found => ?_, fun l l' known known' => ?_,
    fun table unheld => ?_⟩, holds⟩
  · rcases (holds l).mp known with old | rfl
    · obtain ⟨plain, s', r, layout, found, good⟩ := sound.prepared l old
      refine ⟨plain, s', r, layout, ?_, good⟩
      rw [relations, found, Option.some_or]
    · have empty : entries s.settings.table = [] := sound.unused _ fun l known tableEq => by
        rw [Connection.Holds, tableEq, new] at known
        cases known
      refine ⟨plain, s, ⟨s.definition, []⟩, rfl, ?_, ?_⟩
      · rw [relations, show s.layout.table.name = s.settings.table.name from rfl, absent,
          Option.none_or, if_pos (sameName_self _)]
      · rw [show s.layout.table = s.settings.table from rfl, empty]
        exact ⟨rfl, distinct, rfl, List.nodup_nil, fun _ member => absurd member List.not_mem_nil,
          fun _ member => absurd member List.not_mem_nil⟩
  · rw [relations] at found
    rcases Option.or_eq_some_iff.mp found with old | ⟨-, own⟩
    · obtain ⟨l, known, name⟩ := sound.created name r old
      exact ⟨l, (holds l).mpr (.inl known), name⟩
    · split at own
      · rename_i name
        exact ⟨s.layout, (holds _).mpr (.inr rfl), name⟩
      · cases own
  · rcases (holds l).mp known with old | rfl <;> rcases (holds l').mp known' with old' | rfl
    · exact sound.apart l l' old old'
    · exact apart l old
    · exact (apart l' old').symm
    · exact .inl rfl
  · exact sound.unused table fun l known => unheld l ((holds l).mpr (.inl known))

/-- A statement that is prepared keeps the template and has the text of its SQL. -/
theorem Moment.Sound.prepare (sound : w.Sound entries)
    (apart : ∀ l, w.connection.Holds l → Apart l.table s.settings.table) {kind : StatementKind}
    {p : Prepared} {c : Connection} {db : Database}
    (run : prepare (s.template kind) w.connection w.database = (.ok p, c, db)) :
    p.template = s.template kind ∧ p.native = (s.sql kind).text ∧
      w.Gains ⟨c, db, w.now⟩ entries s.layout := by
  have plain : s.settings.table.keyspace = none := by
    cases keyspace : s.settings.table.keyspace with
    | none => rfl
    | some name =>
      have refused : forbidden? (s.template kind) = some (.qualified s.settings.table) := by
        rw [forbidden?, s.template_layout, show s.layout.table = s.settings.table from rfl,
          if_pos (by rw [keyspace]; rfl)]
      rw [Sqlite.prepare, refused] at run
      cases run
  rcases prepare_cases (s.template kind) w.connection w.database with
    ⟨e, refused⟩ | ⟨c', db', registered, left, accepted⟩
  · rw [refused] at run
    cases run
  · rw [run] at left accepted
    obtain ⟨rfl, rfl⟩ := Prod.mk.inj left
    obtain ⟨sql, translated, rfl, -⟩ := accepted p rfl
    rw [s.translate_template] at translated
    cases translated
    refine ⟨rfl, rfl, ?_⟩
    rw [s.template_layout] at registered
    obtain ⟨held, ⟨rfl, rfl⟩ | ⟨new, rfl, created⟩⟩ := Connection.register_cases registered
    · exact Moment.Gains.refl sound held
    · rcases Database.create_cases created with ⟨⟨r, found⟩, -⟩ | ⟨-, definition, rfl⟩
      · rw [show (Definition.ofLayout s.layout).name = s.settings.table.name.text from rfl,
          sound.relation?_eq_none apart new] at found
        cases found
      · exact sound.create apart new plain definition.distinct

/-- A schema whose names a database accepts. -/
structure Nameable (s : Schema) : Prop where
  plain : s.settings.table.keyspace = none
  unreserved : isReserved s.settings.table.name.text = false
  distinct : s.definition.Distinct

/-- A schema whose table a database can have. -/
structure Creatable (s : Schema) : Prop extends Nameable s where
  narrow : s.Narrow

theorem Creatable.forbidden?_template (creatable : Creatable s) (kind : StatementKind) :
    forbidden? (s.template kind) = none := by
  have visible : (s.layout.columns.any fun spec => spec.name.text == expiryColumn) = false := by
    rw [List.any_eq_false]
    intro spec found named
    have names := creatable.distinct
    rw [Definition.Distinct, definition_columns, List.map_append, List.nodup_append] at names
    refine names.2.2 _ (List.mem_map_of_mem (List.mem_map_of_mem found)) _
      (List.mem_singleton.mpr rfl) ?_
    exact congrArg caseless (beq_iff_eq.mp named)
  rw [forbidden?, s.template_layout, show s.layout.table = s.settings.table from rfl,
    creatable.plain, visible]
  rfl

/-- A schema that can be created is prepared unless its table was prepared otherwise. -/
theorem Moment.Sound.prepare_ok (sound : w.Sound entries) (creatable : Creatable s)
    (apart : ∀ l, w.connection.Holds l → Apart l.table s.settings.table)
    (admits : ∀ l, w.connection.Holds l → l.table = s.settings.table → l = s.layout)
    (kind : StatementKind) :
    ∃ p c db, Sqlite.prepare (s.template kind) w.connection w.database = (.ok p, c, db) := by
  have registered : ∃ c db, w.connection.register s.layout w.database = .ok (c, db) ∧
      w.Gains ⟨c, db, w.now⟩ entries s.layout := by
    unfold Connection.register
    rw [show s.layout.table.name = s.settings.table.name from rfl]
    cases known : w.connection.layout? s.settings.table.name with
    | some l =>
      have name := Connection.layout?_table known
      have held : w.connection.Holds l := by
        rw [Connection.Holds, name]
        exact known
      have table : l.table = s.settings.table := by
        rcases apart l held with tableEq | differ
        · exact tableEq
        · rw [name, sameName_self] at differ
          cases differ
      have layoutEq := admits l held table
      simp only [if_pos layoutEq]
      exact ⟨w.connection, w.database, rfl, Moment.Gains.refl sound (layoutEq ▸ held)⟩
    | none =>
      have faultless : (Definition.ofLayout s.layout).fault? = none :=
        (Definition.fault?_eq_none_iff _).mpr
          (s.sound_definition creatable.narrow creatable.distinct)
      have created : w.database.create (Definition.ofLayout s.layout) =
          .ok ⟨w.database.relations ++ [⟨s.definition, []⟩]⟩ := by
        simp only [Database.create, show (Definition.ofLayout s.layout).name =
          s.settings.table.name.text from rfl, creatable.unreserved, Bool.false_eq_true, if_false,
          sound.relation?_eq_none apart known, faultless]
        rfl
      simp only [created]
      exact ⟨_, _, rfl, sound.create apart known creatable.plain creatable.distinct⟩
  obtain ⟨c, db, registered, gains⟩ := registered
  obtain ⟨r, found, good⟩ := gains.sound.relation ((gains.holds s.layout).mpr (.inr rfl))
  have knows : db.knows (s.sql kind) = true := by
    rw [Database.knows, s.sql_table, found]
    simp only [Definition.admits, good.definition, s.unknown?_sql,
      s.isReadable_sql creatable.narrow kind,
      Option.isNone_none, Bool.and_self]
  refine ⟨⟨s.template kind, (s.sql kind).text⟩, c, db, ?_⟩
  simp only [Sqlite.prepare, creatable.forbidden?_template, s.translate_template, sound.isOpen,
    Bool.false_eq_true, if_false, s.template_layout, registered, knows, if_true]

/-- A session on which the statements of a schema can be prepared. -/
structure Moment.Ready (w : Moment) (entries : Entries) (s : Schema) : Prop where
  sound : w.Sound entries
  apart : ∀ l, w.connection.Holds l → Apart l.table s.settings.table
  admits : ∀ l, w.connection.Holds l → l.table = s.settings.table → l = s.layout

/-- A session just opened over an empty database is ready for every schema. -/
theorem ready_initial (now : Nat) (s : Schema) :
    Moment.Ready ⟨.fresh, .empty, now⟩ (fun _ => []) s :=
  ⟨sound_initial now, (fun _ held => by cases held), fun _ held => by cases held⟩

/-- Each statement is prepared, and then the session is ready for the others. -/
theorem Moment.Ready.prepare (ready : w.Ready entries s) (creatable : Creatable s)
    (kind : StatementKind) :
    ∃ p c db, Sqlite.prepare (s.template kind) w.connection w.database = (.ok p, c, db) ∧
      Moment.Ready ⟨c, db, w.now⟩ entries s := by
  obtain ⟨p, c, db, prepared⟩ := ready.sound.prepare_ok creatable ready.apart ready.admits kind
  obtain ⟨-, -, gains⟩ := ready.sound.prepare ready.apart prepared
  refine ⟨p, c, db, prepared, gains.sound, fun l held => ?_, fun l held table => ?_⟩
  · rcases (gains.holds l).mp held with old | rfl
    · exact ready.apart l old
    · exact .inl rfl
  · rcases (gains.holds l).mp held with old | layoutEq
    · exact ready.admits l old table
    · exact layoutEq

end Prepare

/-! ### Starting a repository -/

section Start

variable {α : Type} {self : S} {w w' : Moment} {entries : Entries} {r : Repository S α}

/-- Once a layout is prepared, its table is still apart from all others. -/
theorem Moment.Gains.apart {l : Layout} (gains : w.Gains w' entries l)
    (apart : ∀ l', w.connection.Holds l' → Apart l'.table l.table) :
    ∀ l', w'.connection.Holds l' → Apart l'.table l.table := by
  intro l' held
  rcases (gains.holds l').mp held with old | rfl
  · exact apart l' old
  · exact .inl rfl

/-- A successful start leaves its layout prepared, and the rows as they were. -/
theorem start_leaves (sound : w.Sound entries)
    (apart : ∀ l, w.connection.Holds l → Apart l.table r.schema.settings.table)
    {running : Running S α} (run : r.start.run (host self) w = (.ok running, w')) :
    running.repository = r ∧ running.Faithful ∧
      (∀ kind, (running.statements.of kind).native = (r.schema.sql kind).text) ∧
      w.Gains w' entries r.schema.layout := by
  suffices inverted : running.repository = r ∧
      (∀ kind, (running.statements.of kind).template = r.schema.template kind ∧
        (running.statements.of kind).native = (r.schema.sql kind).text) ∧
      w.Gains w' entries r.schema.layout by
    obtain ⟨rfl, statements, gains⟩ := inverted
    exact ⟨rfl, fun kind => (statements kind).1, fun kind => (statements kind).2, gains⟩
  refine Repository.start_inv
    (fun kind p => p.template = r.schema.template kind ∧ p.native = (r.schema.sql kind).text)
    (fun x => x = w ∨ w.Gains x entries r.schema.layout)
    (fun x => w.Gains x entries r.schema.layout)
    (fun x session x' good obtained => ?_) (fun _ kind x p x' good prepared => ?_)
    (fun x good => .inr good) (fun _ _ good => good) (.inl rfl) run
  · obtain ⟨handle, obtains⟩ := Repository.obtain_run (r := r) (h := host self) (fun _ => rfl) x
    rw [obtains] at obtained
    cases obtained
    exact good
  · have steps := Prod.mk.inj prepared
    rcases answered : Sqlite.prepare (r.schema.template kind) x.connection x.database with
      ⟨answer, c, db⟩
    simp only [answered] at steps
    obtain ⟨rfl, rfl⟩ := steps
    rcases good with rfl | gains
    · obtain ⟨template, native, gains⟩ := sound.prepare apart answered
      exact ⟨⟨template, native⟩, gains⟩
    · obtain ⟨template, native, again⟩ := gains.sound.prepare (gains.apart apart) answered
      refine ⟨⟨template, native⟩, gains.clock, again.sound, fun l => ?_⟩
      rw [again.holds, gains.holds, or_assoc, or_self]

/-- A repository starts if its table can be created and was not prepared otherwise. -/
theorem start_ok (self : S) (sound : w.Sound entries) (creatable : Creatable r.schema)
    (apart : ∀ l, w.connection.Holds l → Apart l.table r.schema.settings.table)
    (admits : ∀ l, w.connection.Holds l → l.table = r.schema.settings.table → l = r.schema.layout) :
    ∃ running w', r.start.run (host self) w = (.ok running, w') := by
  refine Repository.start_ok (fun x => x.Ready entries r.schema) (fun x ready => ?_)
    (fun _ kind x ready => ?_) ⟨sound, apart, admits⟩
  · obtain ⟨handle, obtained⟩ := Repository.obtain_run (r := r) (h := host self) (fun _ => rfl) x
    exact ⟨handle, x, obtained, ready⟩
  · obtain ⟨p, c, db, answered, ready'⟩ := ready.prepare creatable kind
    exact ⟨p, ⟨c, db, x.now⟩, by simp only [host, answered], ready'⟩

end Start

end GroupStore.Sqlite
