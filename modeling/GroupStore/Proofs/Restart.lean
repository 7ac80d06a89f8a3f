import GroupStore.Proofs.Sqlite.File
import GroupStore.Proofs.Twins
import GroupStore.Proofs.World

/-!
# Restarts of a repository on a database file

A repository is started on a session over a file, its calls are made, and at any point between two
calls it may be stopped, its session closed, the file opened again and the repository started once
more with the same settings.  What a session remembers itself is gone then; the tables with their
definitions and rows are in the file, so the new start finds what the first one made, and every
later call has the reply that it would have had without.

* `Sqlite.Database.Serves` — a database on which the statements of a schema can be prepared;
* `World.openSqlite_cases` — a database file that has been opened is opened again;
* `World.Lodged` — a repository that has started on an open session;
* `Residence` — where a repository is kept; `Residence.start`, `stop`, `restart`, `replies`;
* `Residence.restarts_transparent` — restarts succeed and change no reply.
-/

namespace GroupStore

variable {α β : Type}

namespace Sqlite

/-! ### Databases that serve a schema -/

/-- The statements of a schema can be prepared on a database whose table is there already. -/
structure Database.Serves (db : Database) (s : Schema) : Prop where
  allowed : ∀ kind, forbidden? (s.template kind) = none
  unreserved : isReserved s.settings.table.name.text = false
  knows : ∀ kind, db.knows (s.sql kind) = true

variable {db db' : Database} {s : Schema} {c : Connection}

/-- The table of a schema that is served. -/
theorem Database.Serves.relation (serves : db.Serves s) :
    ∃ r, db.relation? s.settings.table.name.text = some r := by
  have known := serves.knows .insert
  rw [Database.knows, s.sql_table] at known
  cases found : db.relation? s.settings.table.name.text with
  | some r => exact ⟨r, rfl⟩
  | none =>
    rw [found] at known
    cases known

/-- A database that serves a schema is not empty. -/
theorem Database.Serves.filled (serves : db.Serves s) : db ≠ .empty := by
  rintro rfl
  obtain ⟨r, found⟩ := serves.relation
  cases found

/-- A session that has not prepared the table otherwise prepares the statements of the schema, and
the database stays as it is. -/
theorem Database.Serves.prepare (serves : db.Serves s) (isOpen : c.closed = false)
    (admits : ∀ l, c.layout? s.settings.table.name = some l → l = s.layout) (kind : StatementKind) :
    ∃ c', Sqlite.prepare (s.template kind) c db = (.ok (preparedOf s kind), c', db) ∧
      c'.closed = false ∧ c'.layout? s.settings.table.name = some s.layout := by
  obtain ⟨r, found⟩ := serves.relation
  obtain ⟨c', registered, isOpen'⟩ : ∃ c', c.register s.layout db = .ok (c', db) ∧
      c'.closed = false := by
    unfold Connection.register
    rw [show s.layout.table.name = s.settings.table.name from rfl]
    cases known : c.layout? s.settings.table.name with
    | some l => exact ⟨c, by simp only [if_pos (admits l known)], isOpen⟩
    | none =>
      have created : db.create (Definition.ofLayout s.layout) = .ok db := by
        simp only [Database.create, show (Definition.ofLayout s.layout).name =
          s.settings.table.name.text from rfl, serves.unreserved, Bool.false_eq_true, if_false,
          found]
        exact if_neg s.key_ne_nil
      exact ⟨{ c with layouts := c.layouts ++ [s.layout] }, by simp only [created], isOpen⟩
  refine ⟨c', ?_, isOpen', (Connection.register_cases registered).1⟩
  simp only [Sqlite.prepare, serves.allowed kind, s.translate_template, isOpen, Bool.false_eq_true,
    if_false, s.template_layout, registered, serves.knows kind, if_true]
  rfl

/-- A preparation that succeeds registers the layout, and leaves what that leaves. -/
theorem register_of_prepare {kind : StatementKind} {p : Prepared}
    (prepared : (Sqlite.prepare (s.template kind) c db).1 = .ok p) :
    ∃ c' db', c.register s.layout db = .ok (c', db') ∧
      (Sqlite.prepare (s.template kind) c db).2 = (c', db') ∧ p = preparedOf s kind ∧
      forbidden? (s.template kind) = none ∧ db'.knows (s.sql kind) = true := by
  have allowed : forbidden? (s.template kind) = none := by
    unfold Sqlite.prepare at prepared
    split at prepared
    · cases prepared
    · assumption
  rcases prepare_cases (s.template kind) c db with
    ⟨e, refused⟩ | ⟨c', db', registered, left, accepted⟩
  · rw [refused] at prepared
    cases prepared
  · obtain ⟨sql, translated, rfl, known⟩ := accepted p prepared
    rw [s.translate_template] at translated
    cases translated
    rw [s.template_layout] at registered
    exact ⟨c', db', registered, left, rfl, allowed, known⟩

/-- A layout that has been registered is registered again as it is. -/
theorem Connection.register_again {c' : Connection} {l : Layout}
    (registered : c.register l db = .ok (c', db')) : c'.register l db' = .ok (c', db') := by
  have held := (Connection.register_cases registered).1
  unfold Connection.register
  simp only [held, if_true]

/-- A session that has prepared nothing yet registers a layout only under a name that is free to be
created, and stays open. -/
theorem Connection.register_fresh {c' : Connection} {l : Layout}
    (registered : Connection.fresh.register l db = .ok (c', db')) :
    isReserved l.table.name.text = false ∧ c'.closed = false := by
  obtain ⟨held, ⟨rfl, -⟩ | ⟨-, rfl, created⟩⟩ := Connection.register_cases registered
  · cases held
  · refine ⟨?_, rfl⟩
    unfold Database.create at created
    split at created
    · cases created
    · rename_i free
      exact Bool.eq_false_iff.mpr free

/-- Tables whose definitions stay serve a schema as before. -/
theorem Database.Serves.of_definitions (serves : db.Serves s)
    (kept : ∀ name, (db'.relation? name).map Relation.definition =
      (db.relation? name).map Relation.definition) : db'.Serves s where
  allowed := serves.allowed
  unreserved := serves.unreserved
  knows kind := by
    have before := serves.knows kind
    have definitions := kept (s.sql kind).table
    unfold Database.knows at before ⊢
    cases found : db.relation? (s.sql kind).table with
    | none =>
      rw [found] at before
      cases before
    | some r =>
      rw [found, Option.map_some] at definitions
      obtain ⟨r', found', definition⟩ := Option.map_eq_some_iff.mp definitions
      rw [found] at before
      simp only [found', definition]
      exact before

/-- An execution keeps the definitions of all tables. -/
theorem Database.Serves.execute (serves : db.Serves s) (b : Bound) (now : Nat) (c : Connection) :
    (Sqlite.execute b now c db).2.Serves s := by
  unfold Sqlite.execute
  split
  · exact serves
  · split
    · rename_i result db' ran
      obtain ⟨sql, answer, -, whole, -⟩ := runBound_eq_ok ran
      obtain ⟨r, r', found, run, rfl⟩ := Database.run_eq_ok whole
      have definition := Relation.run_definition run
      have own : sameName r'.definition.name sql.table = true := by
        rw [definition]
        exact Database.relation?_name found
      refine serves.of_definitions fun name => ?_
      rw [Database.relation?_replace own]
      cases before : db.relation? name with
      | none => rfl
      | some old =>
        simp only [Option.map_some]
        split
        · rename_i named
          -- A table of the same name is the one that the statement ran on.
          have one : db.relation? name = db.relation? sql.table := by
            have names := Database.relation?_name before
            unfold Database.relation?
            congr 1
            funext other
            rw [sameName_comm other.definition.name name,
              sameName_comm other.definition.name sql.table, ← sameName_trans names,
              sameName_trans named]
          rw [before, found] at one
          rw [definition, Option.some.inj one]
        · rfl
    · exact serves

/-- Two open sessions over one database execute alike, and it serves what it served. -/
theorem Moment.execute_of_open {c₁ c₂ : Connection} (open₁ : c₁.closed = false)
    (open₂ : c₂.closed = false) (now : Nat) (fault? : Option String) (b : Bound) :
    ∃ answer db', Moment.execute ⟨c₁, db, now⟩ fault? b = (answer, ⟨c₁, db', now⟩) ∧
      Moment.execute ⟨c₂, db, now⟩ fault? b = (answer, ⟨c₂, db', now⟩) ∧
      (db.Serves s → db'.Serves s) := by
  have alike : Sqlite.execute b now c₂ db = Sqlite.execute b now c₁ db := by
    simp only [Sqlite.execute, open₁, open₂]
  rcases executed : Sqlite.execute b now c₁ db with ⟨answer, after⟩
  have kept (serves : db.Serves s) : after.Serves s := by
    have later := serves.execute b now c₁
    rwa [executed] at later
  simp only [Moment.execute, alike, executed, Moment.settle]
  split
  · exact ⟨answer, db, rfl, rfl, id⟩
  · cases fault? with
    | none => exact ⟨answer, after, rfl, rfl, kept⟩
    | some text => exact ⟨_, db, rfl, rfl, id⟩

end Sqlite

/-! ### Opening a file again -/

namespace World

variable {site : Site} {w : World}

/-- A database that has been opened is opened again whenever its file can be read and the
directories are as they were. -/
theorem openSqlite_cases {clock : ClockSource} {c : Sqlite.Config} {session : Handle} {w' : World}
    (inFile : c.path ≠ privatePath) (opened : w.openSqlite clock c = (.ok session, w')) :
    ∃ place db, let site : Site := ⟨w'.files, c.journal, some place, clock⟩
      session = .sqlite w.databases.length ∧
      w'.Open site w.databases.length ⟨.fresh, db, w'.reading clock⟩ ∧
      ∀ (v : World) (db : Sqlite.Database), w'.files.Alike v.files →
        v.files.databaseAt? place = some db → canRead v.files c.journal place = true →
        ∃ v', v.openSqlite clock c = (.ok (.sqlite v.databases.length), v') ∧
          v'.Open site v.databases.length ⟨.fresh, db, v.reading clock⟩ := by
  unfold openSqlite at opened
  split at opened
  · cases opened
  · rename_i checked
    split at opened
    · cases opened
    · rename_i home changing files prepared
      split at opened
      · cases opened
      · rename_i patient
        cases opened
        obtain ⟨place, db, rfl, rfl, held, readable, again⟩ := prepareHome_cases inFile prepared
        refine ⟨place, db, rfl, ⟨List.getElem?_concat_length, held, fun _ known => ?_, rfl,
          Files.Alike.refl _⟩, fun v db alike held' readable' => ?_⟩
        · cases known
          exact readable
        · obtain ⟨file, files', prepared', grown, held'', readable''⟩ :=
            again v.files db alike held' readable'
          unfold openSqlite
          simp only [Sqlite.Config.check_of_file checked file, prepared', if_neg patient]
          refine ⟨_, rfl, List.getElem?_concat_length, held'', fun _ known => ?_,
            reading_of_clocks rfl rfl, alike.trans grown⟩
          cases known
          exact readable''

/-- The answers to a repository, whatever interruptions are still to come. -/
theorem hostAt_eq (depth : Nat) (ties : Ties) :
    ∃ interrupt, hostAt depth ties = host interrupt ties := by
  cases depth <;> exact ⟨_, rfl⟩

end World

/-! ### One call on two sessions -/

/-- Calls read of a repository its schema and its codec, not where its session comes from. -/
theorem Running.perform_congr {r₁ r₂ : Running Handle α} (schema : r₁.schema = r₂.schema)
    (codec : r₁.repository.codec = r₂.repository.codec) (call : Call α) :
    r₂.perform call = Running.perform ⟨r₁.repository, r₂.session, r₂.statements⟩ call := by
  obtain ⟨⟨schema₁, codec₁, source₁⟩, session₁, statements₁⟩ := r₁
  obtain ⟨⟨schema₂, codec₂, source₂⟩, session₂, statements₂⟩ := r₂
  obtain rfl : schema₁ = schema₂ := schema
  obtain rfl : codec₁ = codec₂ := codec
  cases call with
  | confirm id =>
    have drops (keys : List String) (counters : Confirmation) :
        Running.dropEach ⟨⟨schema₁, codec₁, source₂⟩, session₂, statements₂⟩ id keys counters =
          Running.dropEach ⟨⟨schema₁, codec₁, source₁⟩, session₂, statements₂⟩ id keys
            counters := by
      induction keys generalizing counters with
      | nil => rfl
      | cons key rest ih =>
        simp only [Running.dropEach, ih]
        rfl
    simp only [Running.perform, Running.confirm, Running.confirmMatches, drops]
    rfl
  | add key value => rfl
  | get key => rfl
  | remove key => rfl
  | getKeys => rfl
  | scan => rfl

namespace World

variable {site : Site}

/-- Programs that request alike on two open sessions over one database come to the same result and
leave the same database, which serves what it served. -/
theorem Open.run_twin {p₁ p₂ : Program Handle β} (twin : Program.Twin Eq p₁ p₂) {i j : Nat}
    (asks₁ : p₁.Asks fun session _ => session = .sqlite i)
    (asks₂ : p₂.Asks fun session _ => session = .sqlite j) {w v : World}
    {c₁ c₂ : Sqlite.Connection} {db : Sqlite.Database} {now : Nat}
    (left : w.Open site i ⟨c₁, db, now⟩) (right : v.Open site j ⟨c₂, db, now⟩)
    (alive₁ : c₁.closed = false) (alive₂ : c₂.closed = false) {s : Schema} (serves : db.Serves s)
    (interrupt₁ interrupt₂ : Interruption → World → World) (ties₁ ties₂ : Ties) :
    ∃ result w' v' db', p₁.run (host interrupt₁ ties₁) w = (result, w') ∧
      p₂.run (host interrupt₂ ties₂) v = (result, v') ∧ w'.Open site i ⟨c₁, db', now⟩ ∧
      v'.Open site j ⟨c₂, db', now⟩ ∧ db'.Serves s := by
  induction twin generalizing w v db with
  | done a => exact ⟨a, w, v, db, rfl, rfl, left, right, serves⟩
  | @execute s₁ s₂ b₁ b₂ k₁ k₂ boundEq _ ih =>
    obtain ⟨rfl, asks₁⟩ := asks₁
    obtain ⟨rfl, asks₂⟩ := asks₂
    subst boundEq
    obtain ⟨w₁, executed₁, left'⟩ := left.execute interrupt₁ b₁
    obtain ⟨v₁, executed₂, right'⟩ := right.execute interrupt₂ b₁
    obtain ⟨answer, db₁, settled₁, settled₂, kept⟩ :=
      Sqlite.Moment.execute_of_open (s := s) alive₁ alive₂ now site.fault? b₁
    rw [settled₁] at executed₁ left'
    rw [settled₂] at executed₂ right'
    obtain ⟨result, w', v', db', run₁, run₂, after⟩ :=
      ih _ (asks₁ _) (asks₂ _) left' right' (kept serves)
    refine ⟨result, w', v', db', ?_, ?_, after⟩
    · simp only [Program.run, host, executed₁]
      exact run₁
    · simp only [Program.run, host, executed₂]
      exact run₂
  | record _ ih =>
    exact ih asks₁ asks₂ (left.record serves.filled ties₁.sink _)
      (right.record serves.filled ties₂.sink _) serves

/-- A repository that has started on an open session over the file that it is kept in. -/
structure Lodged (site : Site) (w : World) (r : Running Handle α) (m : Sqlite.Moment) :
    Prop where
  session : ∃ i, r.session = .sqlite i ∧ w.Open site i m
  statements : ∀ kind, r.statements.of kind = Sqlite.preparedOf r.schema kind
  alive : m.connection.closed = false
  serves : m.database.Serves r.schema

theorem Lodged.faithful {w : World} {r : Running Handle α} {m : Sqlite.Moment}
    (lodged : w.Lodged site r m) : r.Faithful := fun kind => by
  rw [lodged.statements kind]
  rfl

/-- Whatever the clocks are set to, the repository stays lodged. -/
theorem Lodged.atClocks {w : World} {r : Running Handle α} {m : Sqlite.Moment}
    (lodged : w.Lodged site r m) (manual system : Nat) {now : Nat}
    (reading : ({ w with clock := manual, systemTime := system }).reading site.clock = now) :
    ({ w with clock := manual, systemTime := system }).Lodged site r { m with now } := by
  obtain ⟨i, session, isOpen⟩ := lodged.session
  exact ⟨⟨i, session, isOpen.atClocks manual system reading⟩, lodged.statements, lodged.alive,
    lodged.serves⟩

/-- One call of a repository that is kept in a file, made on two sessions, has the same reply and
leaves the same database. -/
theorem Lodged.call {w v : World} {r₁ r₂ : Running Handle α} {c₁ c₂ : Sqlite.Connection}
    {db : Sqlite.Database} {now : Nat} (left : w.Lodged site r₁ ⟨c₁, db, now⟩)
    (right : v.Lodged site r₂ ⟨c₂, db, now⟩) (schema : r₁.schema = r₂.schema)
    (codec : r₁.repository.codec = r₂.repository.codec) (call : Call α) (ties : Ties) :
    ∃ reply w' v' db', w.run ties (r₁.perform call) = (reply, w') ∧
      v.run ties (r₂.perform call) = (reply, v') ∧
      w'.Lodged site r₁ ⟨c₁, db', now⟩ ∧ v'.Lodged site r₂ ⟨c₂, db', now⟩ := by
  obtain ⟨i, session₁, open₁⟩ := left.session
  obtain ⟨j, session₂, open₂⟩ := right.session
  have statements (kind : StatementKind) : r₁.statements.of kind = r₂.statements.of kind := by
    rw [left.statements, right.statements, schema]
  have twin : Program.Twin Eq (r₁.perform call) (r₂.perform call) := by
    rw [Running.perform_congr schema codec call]
    let moved : Running Handle α := ⟨r₁.repository, r₂.session, r₂.statements⟩
    have repository : r₁.repository = moved.repository := rfl
    refine (Running.perform_twin repository
      (fun kind => congrArg Prepared.template (statements kind)) call).mono ?_
    rintro ⟨statement₁, values₁, fits₁⟩ ⟨statement₂, values₂, fits₂⟩
      ⟨kind, prepared₁, prepared₂, values⟩
    obtain rfl : values₁ = values₂ := values
    obtain rfl : statement₁ = statement₂ := (prepared₁.trans (statements kind)).trans prepared₂.symm
    rfl
  obtain ⟨interrupt₁, host₁⟩ := hostAt_eq w.pendingCount ties
  obtain ⟨interrupt₂, host₂⟩ := hostAt_eq v.pendingCount ties
  obtain ⟨reply, w', v', db', run₁, run₂, after₁, after₂, serves⟩ := Open.run_twin twin
    ((r₁.perform_asks left.faithful call).mono fun _ _ requests => requests.1.trans session₁)
    ((r₂.perform_asks right.faithful call).mono fun _ _ requests => requests.1.trans session₂)
    open₁ open₂ left.alive right.alive left.serves interrupt₁ interrupt₂ ties ties
  refine ⟨reply, w', v', db', by rw [World.run, host₁, run₁], by rw [World.run, host₂, run₂],
    ⟨⟨i, session₁, after₁⟩, left.statements, left.alive, serves⟩,
    ⟨⟨j, session₂, after₂⟩, right.statements, right.alive, schema ▸ serves⟩⟩

end World

/-! ### Keeping a repository in a file -/

/-- Where a repository is kept: the database file, the clock of the sessions over it, and the sink
of the reports. -/
structure Residence where
  config : Sqlite.Config
  clock : ClockSource
  sink : Audit.Sink

/-- What happens to a started repository, and what the clocks read then. -/
structure Occasion (α : Type) where
  clock : Nat
  systemTime : Nat
  /-- A call, or else a restart. -/
  call : Option (Call α)

namespace Residence

/-- What a repository that is kept here is tied to. -/
def ties (s : Residence) : Ties := ⟨.sqlite s.config, s.clock, s.sink⟩

/-- Open the file and start a repository on the session; one that owns its session opens the file
itself. -/
def start (s : Residence) (r : Repository Handle α) (w : World) :
    Except RepositoryError (Running Handle α) × World :=
  match r.source with
  | .owned => w.run s.ties r.start
  | .borrowed _ =>
    match w.openSqlite s.clock s.config with
    | (.ok session, w) => w.run s.ties { r with source := .borrowed session }.start
    | (.error e, w) => (.error (.startup (.unreachable e.toSessionError)), w)

/-- Stop a repository and close its session; one that owns its session closes it itself. -/
def stop (s : Residence) (r : Running Handle α) (w : World) :
    Except RepositoryError (Repository Handle α) × World :=
  match w.run s.ties r.stop with
  | (.error e, w) => (.error e, w)
  | (.ok repository, w) =>
    match repository.source with
    | .owned => (.ok repository, w)
    | .borrowed _ =>
      match World.close r.session w with
      | (.ok (), w) => (.ok repository, w)
      | (.error e, w) => (.error (.storage e), w)

/-- Stop a repository, close its session, open the file again and start with the same settings. -/
def restart (s : Residence) (r : Running Handle α) (w : World) :
    Except RepositoryError (Running Handle α) × World :=
  match s.stop r w with
  | (.ok repository, w) => s.start repository w
  | (.error e, w) => (.error e, w)

/-- The replies of the calls among some occasions, first to last; none if a restart fails. -/
def replies (s : Residence) :
    List (Occasion α) → Running Handle α → World →
      Option (List (Except RepositoryError (Reply α)))
  | [], _, _ => some []
  | o :: rest, r, w =>
    let w := { w with clock := o.clock, systemTime := o.systemTime }
    match o.call with
    | some call =>
      let (reply, w) := w.run s.ties (r.perform call)
      (s.replies rest r w).map (reply :: ·)
    | none =>
      match s.restart r w with
      | (.ok r, w) => s.replies rest r w
      | (.error _, _) => none

/-- The site of the database, once the directories are there. -/
def site (s : Residence) (directories : Files) (place : Place) : World.Site :=
  ⟨directories, s.config.journal, some place, s.clock⟩

variable {s : Residence} {directories : Files} {place : Place} {w w' : World}
  {r : Repository Handle α} {running : Running Handle α} {c : Sqlite.Connection}
  {db : Sqlite.Database} {now : Nat}

/-- Wherever the file can be read and the directories are as they were, it can be opened. -/
def Reopens (s : Residence) (directories : Files) (place : Place) : Prop :=
  ∀ (v : World) (db : Sqlite.Database), directories.Alike v.files →
    v.files.databaseAt? place = some db →
    World.canRead v.files s.config.journal place = true →
    ∃ v', v.openSqlite s.clock s.config = (.ok (.sqlite v.databases.length), v') ∧
      v'.Open (s.site directories place) v.databases.length ⟨.fresh, db, v.reading s.clock⟩

/-- A start is the start of a repository that obtains a session over the opened file. -/
theorem start_of_opened {session : Handle} {v : World}
    (opened : w.openSqlite s.clock s.config = (.ok session, v)) (r : Repository Handle α) :
    ∃ (r' : Repository Handle α) (u : World) (interrupt : Interruption → World → World),
      r'.schema = r.schema ∧ r'.codec = r.codec ∧
      r'.obtain.run (World.host interrupt s.ties) u = (.ok session, v) ∧
      s.start r w = r'.start.run (World.host interrupt s.ties) u := by
  unfold start
  cases source : r.source with
  | owned =>
    obtain ⟨interrupt, host⟩ := World.hostAt_eq w.pendingCount s.ties
    refine ⟨r, w, interrupt, rfl, rfl, ?_, by rw [World.run, host]⟩
    unfold Repository.obtain
    rw [source]
    simp only [Program.run, World.host, ties, World.connect, opened]
    rfl
  | borrowed other =>
    obtain ⟨interrupt, host⟩ := World.hostAt_eq v.pendingCount s.ties
    refine ⟨{ r with source := .borrowed session }, v, interrupt, rfl, rfl, rfl, ?_⟩
    simp only [opened, World.run, host]

/-- A repository that has started has opened the file. -/
theorem opened_of_start (started : s.start r w = (.ok running, w')) :
    ∃ session v, w.openSqlite s.clock s.config = (.ok session, v) := by
  rcases opened : w.openSqlite s.clock s.config with ⟨result, v⟩
  cases result with
  | ok session => exact ⟨session, v, rfl⟩
  | error e =>
    unfold start at started
    cases source : r.source with
    | owned =>
      obtain ⟨interrupt, host⟩ := World.hostAt_eq w.pendingCount s.ties
      simp only [source, World.run, host] at started
      obtain ⟨session, w₁, -, -, obtained, -⟩ := Repository.start_eq_ok started
      unfold Repository.obtain at obtained
      rw [source] at obtained
      simp only [Program.run, World.host, ties, World.connect, opened] at obtained
      cases obtained
    | borrowed other =>
      simp only [source, opened] at started
      cases started

/-- A repository that was kept in a file starts again on a fresh session over it. -/
theorem start_again {i : Nat} {v : World} (serves : db.Serves r.schema)
    (opened : w.openSqlite s.clock s.config = (.ok (.sqlite i), v))
    (isOpen : v.Open (s.site directories place) i ⟨.fresh, db, now⟩) :
    ∃ running v' c, s.start r w = (.ok running, v') ∧
      running.schema = r.schema ∧ running.repository.codec = r.codec ∧
      v'.Lodged (s.site directories place) running ⟨c, db, now⟩ := by
  obtain ⟨r', u, interrupt, schema, codec, obtained, startEq⟩ := start_of_opened opened r
  let Good (x : World) : Prop := ∃ c : Sqlite.Connection, c.closed = false ∧
    (∀ l, c.layout? r.schema.settings.table.name = some l → l = r.schema.layout) ∧
    x.Open (s.site directories place) i ⟨c, db, now⟩
  have prepares (kind : StatementKind) (x : World) (good : Good x) : ∃ p x',
      (World.host interrupt s.ties).prepare (.sqlite i) (r'.schema.template kind) x = (.ok p, x') ∧
        p = Sqlite.preparedOf r.schema kind ∧ Good x' := by
    obtain ⟨c, alive, admits, isOpen⟩ := good
    obtain ⟨c', prepared, alive', held⟩ := serves.prepare alive admits kind
    obtain ⟨x', answered, isOpen'⟩ := isOpen.prepare (r.schema.template kind)
    rw [Sqlite.Moment.prepare_kept (m := ⟨c, db, now⟩) _ prepared] at answered isOpen'
    exact ⟨_, x', by rw [schema]; exact answered, rfl, c', alive',
      fun l known => (Option.some.inj (held.symm.trans known)).symm, isOpen'⟩
  obtain ⟨statements, x, prepared, each, good⟩ :=
    Repository.prepareAll_ok (fun kind p => p = Sqlite.preparedOf r.schema kind) Good prepares
      ⟨.fresh, rfl, (fun l known => by cases known), isOpen⟩
  obtain ⟨v', started, c, alive, -, isOpen'⟩ := Repository.start_run obtained prepared
    (I := Good) (fun e x ⟨c, alive, admits, isOpen⟩ =>
      ⟨c, alive, admits, isOpen.record serves.filled _ e⟩) good
  refine ⟨⟨r', .sqlite i, statements⟩, v', c, by rw [startEq, started], schema, codec,
    ⟨i, rfl, isOpen'⟩, fun kind => ?_, alive, ?_⟩
  · rw [each kind, Running.schema, schema]
  · rw [Running.schema, schema]
    exact serves

/-- A repository that has started is lodged in its file, and the file can be opened again. -/
theorem lodged_of_start (inFile : s.config.path ≠ World.privatePath)
    (started : s.start r w = (.ok running, w')) :
    ∃ directories place m, s.Reopens directories place ∧
      w'.Lodged (s.site directories place) running m := by
  obtain ⟨session, v, opened⟩ := opened_of_start started
  obtain ⟨place, db, rfl, isOpen, again⟩ := World.openSqlite_cases inFile opened
  obtain ⟨r', u, interrupt, schema, codec, obtained, startEq⟩ := start_of_opened opened r
  rw [startEq] at started
  obtain ⟨session', v₁, statements, v₂, obtained', prepared, rfl, reports⟩ :=
    Repository.start_eq_ok started
  rw [obtained] at obtained'
  cases obtained'
  -- The first preparation registers the layout; the others find it registered.
  obtain ⟨c, db', registered⟩ : ∃ c db', Sqlite.Connection.fresh.register r'.schema.layout db =
      .ok (c, db') := by
    obtain ⟨x, -, -, -, one, -⟩ := Repository.prepareAll_eq_ok_iff.mp prepared
    obtain ⟨x', answered, -⟩ := isOpen.prepare (r'.schema.template .insert)
    have first := (congrArg Prod.fst answered).symm.trans (congrArg Prod.fst one)
    obtain ⟨c, db', registered, -⟩ :=
      Sqlite.register_of_prepare (Sqlite.Moment.prepare_eq_ok first).1
    exact ⟨c, db', registered⟩
  let Opened (c : Sqlite.Connection) (db : Sqlite.Database) (x : World) : Prop :=
    x.Open (s.site v.files place) w.databases.length ⟨c, db, v.reading s.clock⟩
  have step {c₁ : Sqlite.Connection} {db₁ : Sqlite.Database}
      (registers : c₁.register r'.schema.layout db₁ = .ok (c, db')) (kind : StatementKind)
      {x x' : World} {p : Prepared} (good : Opened c₁ db₁ x)
      (prepared : (World.host interrupt s.ties).prepare (.sqlite w.databases.length)
        (r'.schema.template kind) x = (.ok p, x')) :
      (p = Sqlite.preparedOf r'.schema kind ∧
        Sqlite.forbidden? (r'.schema.template kind) = none ∧
          db'.knows (r'.schema.sql kind) = true) ∧ Opened c db' x' := by
    obtain ⟨x'', answered, after⟩ := good.prepare (r'.schema.template kind)
    have answered := prepared.symm.trans answered
    obtain ⟨answer, rfl⟩ := Prod.mk.inj answered
    obtain ⟨answer, settled⟩ := Sqlite.Moment.prepare_eq_ok answer.symm
    obtain ⟨c₂, db₂, registered₂, left, preparedEq, allowed, known⟩ :=
      Sqlite.register_of_prepare answer
    rw [registers] at registered₂
    cases registered₂
    rw [settled, left] at after
    exact ⟨⟨preparedEq, allowed, known⟩, after⟩
  have again' := Sqlite.Connection.register_again registered
  obtain ⟨each, after⟩ := Repository.prepareAll_inv
    (fun kind p => p = Sqlite.preparedOf r'.schema kind ∧
      Sqlite.forbidden? (r'.schema.template kind) = none ∧ db'.knows (r'.schema.sql kind) = true)
    (fun x => Opened .fresh db x ∨ Opened c db' x) (Opened c db')
    (fun kind x p x' good prepared => good.elim
      (fun first => step registered kind first prepared)
      fun later => step again' kind later prepared)
    (fun x => .inr) (.inl isOpen) prepared
  obtain ⟨unreserved, alive⟩ := Sqlite.Connection.register_fresh registered
  have serves : db'.Serves r'.schema :=
    ⟨fun kind => (each kind).2.1, unreserved, fun kind => (each kind).2.2⟩
  refine ⟨v.files, place, ⟨c, db', v.reading s.clock⟩, again, ⟨_, rfl, ?_⟩,
    fun kind => (each kind).1, alive, serves⟩
  exact reports (Opened c db') (fun e x good => good.record serves.filled _ e) after

/-- A repository that is lodged in its file can be stopped, and the database stays. -/
theorem stop_lodged (lodged : w.Lodged (s.site directories place) running ⟨c, db, now⟩) :
    ∃ i v c', s.stop running w = (.ok running.repository, v) ∧
      v.Open (s.site directories place) i ⟨c', db, now⟩ := by
  obtain ⟨i, session, isOpen⟩ := lodged.session
  obtain ⟨interrupt, host⟩ := World.hostAt_eq w.pendingCount s.ties
  unfold stop
  simp only [World.run, host, Running.stop, Program.andThen, Program.run_bind, Program.run_reported]
  cases source : running.repository.source with
  | owned =>
    obtain ⟨v, closed, isOpen'⟩ := isOpen.close
    simp only [Source.isOwned, if_true, Program.run, World.host, session, closed, source]
    exact ⟨i, _, _, rfl, isOpen'.record lodged.serves.filled _ _⟩
  | borrowed other =>
    obtain ⟨v, closed, isOpen'⟩ := (isOpen.record lodged.serves.filled s.ties.sink
      (running.repository.report (β := Unit) .stop none none Repository.plainly (.ok ()))).close
    simp only [Source.isOwned, Bool.false_eq_true, if_false, Program.run, World.host, session,
      source, closed]
    exact ⟨i, v, _, rfl, isOpen'⟩

/-- A restart succeeds, and the repository is lodged in its file as before. -/
theorem restart_lodged (reopens : s.Reopens directories place)
    (lodged : w.Lodged (s.site directories place) running ⟨c, db, now⟩) :
    ∃ running' v c', s.restart running w = (.ok running', v) ∧ running'.schema = running.schema ∧
      running'.repository.codec = running.repository.codec ∧
      v.Lodged (s.site directories place) running' ⟨c', db, now⟩ := by
  obtain ⟨i, u, c', stopped, isOpen⟩ := stop_lodged lodged
  obtain ⟨held, readable⟩ := isOpen.inFile (show some place = some place from rfl)
  obtain ⟨u', opened, isOpen'⟩ := reopens u db isOpen.alike held readable
  rw [show u.reading s.clock = now from isOpen.reading] at isOpen'
  obtain ⟨running', v, c', started, schema, codec, lodged'⟩ :=
    start_again (r := running.repository) lodged.serves opened isOpen'
  refine ⟨running', v, c', ?_, schema, codec, lodged'⟩
  unfold restart
  rw [stopped]
  exact started

/-- Of two repositories with the same settings and the same database, one that is restarted now and
then and one that is not, each call has the same reply. -/
theorem replies_lodged (reopens : s.Reopens directories place) (occasions : List (Occasion α))
    {v : World} {r₁ r₂ : Running Handle α} {c₁ c₂ : Sqlite.Connection} {n₁ n₂ : Nat}
    (left : w.Lodged (s.site directories place) r₁ ⟨c₁, db, n₁⟩)
    (right : v.Lodged (s.site directories place) r₂ ⟨c₂, db, n₂⟩) (schema : r₁.schema = r₂.schema)
    (codec : r₁.repository.codec = r₂.repository.codec) :
    ∃ replies, s.replies occasions r₁ w = some replies ∧
      s.replies (occasions.filter fun o => o.call.isSome) r₂ v = some replies := by
  induction occasions generalizing w v r₁ r₂ c₁ c₂ n₁ n₂ db with
  | nil => exact ⟨[], rfl, rfl⟩
  | cons o rest ih =>
    let now := ({ w with clock := o.clock, systemTime := o.systemTime }).reading s.clock
    have left' := left.atClocks o.clock o.systemTime rfl
    obtain ⟨manual, system, occasion⟩ := o
    cases occasion with
    | none =>
      obtain ⟨r', w', c', restarted, schema', codec', lodged⟩ := restart_lodged reopens left'
      obtain ⟨replies, one, other⟩ :=
        ih lodged right (schema'.trans schema) (codec'.trans codec)
      refine ⟨replies, ?_, other⟩
      simp only [Residence.replies, restarted, one]
    | some call =>
      have right' := right.atClocks manual system (World.reading_of_clocks rfl rfl)
      obtain ⟨reply, w', v', db', run₁, run₂, after₁, after₂⟩ :=
        left'.call right' schema codec call s.ties
      obtain ⟨replies, one, other⟩ := ih after₁ after₂ schema codec
      refine ⟨reply :: replies, ?_, ?_⟩
      · simp only [Residence.replies, run₁, one, Option.map_some]
      · simp only [List.filter_cons, Option.isSome_some, if_true, Residence.replies, run₂, other,
          Option.map_some]

/-- A repository has started on a session over a database file, its own or a borrowed one, and is
then called, and at any points between calls stopped, its session closed, the file opened again and
the repository started once more, the clocks reading whatever they read each time.  Every restart
succeeds, and the calls have the replies that they have without any restart. -/
theorem restarts_transparent (s : Residence) (inFile : s.config.path ≠ World.privatePath)
    (w : World) (r : Repository Handle α) {running : Running Handle α} {w' : World}
    (started : s.start r w = (.ok running, w')) (occasions : List (Occasion α)) :
    ∃ replies, s.replies occasions running w' = some replies ∧
      s.replies (occasions.filter fun o => o.call.isSome) running w' = some replies := by
  obtain ⟨directories, place, ⟨c, db, now⟩, reopens, lodged⟩ := lodged_of_start inFile started
  exact replies_lodged reopens occasions lodged lodged rfl rfl

/-- A database file in the working directory. -/
def workingFile : Residence := ⟨{ path := "store.db" }, .manual, .none⟩

/-- A repository that owns its session and whose results live for one second. -/
def briefRepository : Repository Handle String where
  schema := ⟨{ table := Repository.resultsTable, ttlSeconds := some 1 }, rfl⟩
  codec := ⟨id, fun _ value => .ok value.toUTF8, fun _ _ => .error (.decode "unreadable")⟩
  source := .owned

/-- A result is stored, has expired without being purged when the repository is restarted, and is
then scanned for and confirmed. -/
def expiredMeanwhile : List (Occasion String) :=
  [⟨0, 0, some (.add "group" "id")⟩, ⟨999, 0, some .scan⟩, ⟨1000, 0, none⟩,
    ⟨1000, 0, some .scan⟩, ⟨1000, 0, none⟩, ⟨1001, 0, some (.confirm "id")⟩]

theorem restarts_transparent_expired :
    workingFile.config.path ≠ World.privatePath ∧
      ∃ running w', workingFile.start briefRepository (.fresh 0 0 .fresh) = (.ok running, w') ∧
        ∃ replies, workingFile.replies expiredMeanwhile running w' = some replies ∧
          workingFile.replies (expiredMeanwhile.filter fun o => o.call.isSome) running w' =
            some replies := by
  have inFile : workingFile.config.path ≠ World.privatePath := by decide +kernel
  have starts : (workingFile.start briefRepository (.fresh 0 0 .fresh)).1.isOk = true := by
    decide +kernel
  rcases started : workingFile.start briefRepository (.fresh 0 0 .fresh) with ⟨result, w'⟩
  rw [started] at starts
  cases result with
  | error e => cases starts
  | ok running =>
    exact ⟨inFile, running, w', rfl,
      restarts_transparent workingFile inFile _ briefRepository started expiredMeanwhile⟩

end Residence

end GroupStore
