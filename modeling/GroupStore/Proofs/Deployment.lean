import GroupStore.Proofs.Building
import GroupStore.Proofs.Construction
import GroupStore.Proofs.Restart
import GroupStore.Proofs.Startup

/-!
# Accepted configurations of the database backend are started

Validation looks at a configuration alone.  Opening the file shows whether the engine can put a
journal and a log beside it, and the driver takes no waiting time above its limit; the table is
created when the first statement is prepared, and only then does the database say whether it
accepts the names.  So a configuration that is accepted is built, and on a new file it starts
exactly if all of this is so.

* `World.Openable`, `World.Writable` — what opening and changing a database need beside its file;
* `World.openSqlite_new`, `World.openSqlite_closed` — when a new database is opened;
* `Residence.starts_iff_nameable` — when a repository starts on a new database;
* `Config.deploy` — build what a configuration describes and start it;
* `Config.deploys_iff_creatable` — when an accepted configuration starts.
-/

namespace GroupStore

variable {α : Type}

/-! ### New databases -/

namespace World

variable {files : Files} {store : Sqlite.Config} {place : Place} {w : World}

/-- What opening a new database needs beside its file can be there: a log, whose path is not too
long, and in the write-ahead mode a journal as well. -/
structure Openable (files : Files) (mode : Sqlite.JournalMode) (place : Place) : Prop where
  near : isTooFar place = false
  log : files.isBlocked place logEnding = false
  journal : mode = .wal → canJournal files place = true

/-- A database file that nobody has written can be read if it can be opened. -/
theorem openable_iff {g : Files} (alike : files.Alike g) {mode : Sqlite.JournalMode}
    (unwritten : g.isWritten place = false) : Openable files mode place ↔
      isTooFar place = false ∧ canRead g mode place = true := by
  have reads : canRead g mode place = true ↔
      files.isBlocked place logEnding = false ∧ (mode = .wal → canJournal files place = true) := by
    cases mode <;> simp [canRead, alike.isBlocked, canJournal_alike alike, unwritten]
  rw [reads]
  exact ⟨fun opens => ⟨opens.near, opens.log, opens.journal⟩, fun all => ⟨all.1, all.2.1, all.2.2⟩⟩

theorem openable_alike {g : Files} (alike : files.Alike g) {mode : Sqlite.JournalMode} :
    Openable g mode place ↔ Openable files mode place := by
  have log := alike.isBlocked place logEnding
  have journal := canJournal_alike alike place
  exact ⟨fun opens => ⟨opens.near, log ▸ opens.log, journal ▸ opens.journal⟩,
    fun opens => ⟨opens.near, log ▸ opens.log, journal ▸ opens.journal⟩⟩

theorem writable_alike {g : Files} (alike : files.Alike g) (mode : Sqlite.JournalMode)
    (place : Place) : Writable g mode place ↔ Writable files mode place := by
  unfold Writable
  rw [alike.isBlocked, canJournal_alike alike]

/-- A configured database is a session's own, or it can be opened in its file. -/
def Opens (files : Files) (store : Sqlite.Config) (place : Place) : Prop :=
  store.path = privatePath ∨ Openable files store.journal place

/-- The site of a configured database whose path leads to a place. -/
def siteOf (files : Files) (store : Sqlite.Config) (place : Place) (clock : ClockSource) : Site :=
  ⟨files, store.journal, if store.path = privatePath then none else some place, clock⟩

theorem siteOf_private (inMemory : store.path = privatePath) (clock : ClockSource) :
    siteOf files store place clock = ⟨files, store.journal, none, clock⟩ := by
  rw [siteOf, if_pos inMemory]

theorem siteOf_file (inFile : store.path ≠ privatePath) (clock : ClockSource) :
    siteOf files store place clock = ⟨files, store.journal, some place, clock⟩ := by
  rw [siteOf, if_neg inFile]

/-- The changes of a configured database can be made in memory, or if they can be in its file. -/
theorem siteOf_fault?_eq_none_iff (clock : ClockSource) :
    (siteOf files store place clock).fault? = none ↔
      store.path = privatePath ∨ Writable files store.journal place := by
  by_cases inMemory : store.path = privatePath
  · rw [siteOf_private inMemory]
    exact iff_of_true rfl (.inl inMemory)
  · rw [siteOf_file inMemory, Site.fault?_eq_none_iff rfl, or_iff_right inMemory]

/-- A new database has its home without tables if it can be opened, and otherwise none. -/
theorem prepareHome_new (found : files.locate store.path = some place)
    (vacant : files.Vacant place) (clock : ClockSource) :
    let site := siteOf files store place clock
    (Opens files store place ∧ ∃ files',
      prepareHome files store = (.ok (site.home .empty, site.changing), files') ∧
      files.Alike files' ∧ ∀ p, site.place? = some p →
        files'.databaseAt? p = some .empty ∧ canRead files' store.journal p = true) ∨
    (¬Opens files store place ∧
      ∃ files', prepareHome files store = (.error (.engine cannotOpen), files')) := by
  unfold prepareHome
  by_cases inFile : store.path = privatePath
  · rw [siteOf_private inFile, if_pos inFile]
    exact .inl ⟨.inl inFile, files, rfl, Files.Alike.refl files, fun p named => by cases named⟩
  · obtain ⟨g, opened, held, alike⟩ := vacant.openDatabase?
    have unwritten : g.isWritten place = false := by rw [Files.isWritten, held]
    rw [siteOf_file inFile, Opens, or_iff_right inFile, openable_iff alike unwritten, if_neg inFile]
    simp only [Files.createParents?_of_locate found, found, opened]
    cases far : isTooFar place with
    | true => exact .inr ⟨(fun both => by cases both.1), files, rfl⟩
    | false =>
      by_cases readable : canRead g store.journal place = true
      · obtain ⟨alike', held', readable'⟩ :=
          turnOn_keeps (Files.openDatabase?_cases opened).2 readable
        simp only [Bool.false_eq_true, if_false, if_pos readable, changingOf_alike alike]
        exact .inl ⟨⟨trivial, readable⟩, _, rfl, alike.trans alike', fun p named =>
          Option.some.inj named ▸ ⟨held', readable'⟩⟩
      · simp only [Bool.false_eq_true, if_false, if_neg readable]
        exact .inr ⟨fun both => readable both.2, g, rfl⟩

/-- A new database is opened without tables if it can be and the waiting time is within the limit;
it is tried to be opened before the waiting time is set. -/
theorem openSqlite_new (clock : ClockSource) {checked : Files}
    (sound : store.check checked = .ok ()) (found : w.files.locate store.path = some place)
    (vacant : w.files.Vacant place) :
    (Opens w.files store place ∧ store.busyTimeout ≤ maxBusyTimeout ∧
      ∃ v, w.openSqlite clock store = (.ok (.sqlite w.databases.length), v) ∧
        v.Open (siteOf w.files store place clock) w.databases.length
          ⟨.fresh, .empty, w.reading clock⟩) ∨
    (Opens w.files store place ∧ maxBusyTimeout < store.busyTimeout ∧
      (w.openSqlite clock store).1 = .error tooPatient) ∨
    (¬Opens w.files store place ∧ (w.openSqlite clock store).1 = .error (.engine cannotOpen)) := by
  have passes := Sqlite.Config.check_of_file sound (vacant.isDirectory found)
  unfold openSqlite
  simp only [passes]
  rcases prepareHome_new found vacant clock with
    ⟨opens, files', home, alike, filed⟩ | ⟨closed, files', home⟩
  · simp only [home]
    by_cases patient : store.busyTimeout ≤ maxBusyTimeout
    · rw [if_neg (Nat.not_lt.mpr patient)]
      refine .inl ⟨opens, patient, _, rfl, List.getElem?_concat_length, ?_,
        fun p named => (filed p named).2, reading_of_clocks rfl rfl, alike⟩
      unfold Site.home
      split
      · rfl
      · rename_i p named
        exact (filed p named).1
    · rw [if_pos (Nat.not_le.mp patient)]
      exact .inr (.inl ⟨opens, Nat.not_le.mp patient, rfl⟩)
  · simp only [home]
    exact .inr (.inr ⟨closed, trivial⟩)

end World

/-! ### Starting on a new database -/

namespace Sqlite

/-- A new database prepares a statement only if it accepts the names, and not without creating the
table. -/
theorem Nameable.of_prepare {s : Schema} {kind : StatementKind} {p : Prepared}
    (prepared : (Sqlite.prepare (s.template kind) .fresh .empty).1 = .ok p) :
    Nameable s ∧ (Sqlite.prepare (s.template kind) .fresh .empty).2.2 ≠ .empty := by
  obtain ⟨c, db, registered, left, -, allowed, known⟩ := register_of_prepare prepared
  refine ⟨⟨?_, (Connection.register_fresh registered).1, ?_⟩, ?_⟩
  · rw [forbidden?, s.template_layout] at allowed
    split at allowed
    · cases allowed
    · rename_i plain
      exact Option.not_isSome_iff_eq_none.mp plain
  · obtain ⟨held, ⟨rfl, -⟩ | ⟨-, rfl, created⟩⟩ := Connection.register_cases registered
    · cases held
    · obtain ⟨⟨r, found⟩, -⟩ | ⟨-, sound, -⟩ := Database.create_cases created
      · cases found
      · exact sound.distinct
  · rw [left]
    rintro rfl
    cases known

/-- So does a new database that perhaps cannot be changed, unless it can. -/
theorem Moment.prepare_new {s : Schema} {kind : StatementKind} {p : Prepared} {now : Nat}
    {fault? : Option String}
    (prepared : (Moment.prepare ⟨.fresh, .empty, now⟩ fault? (s.template kind)).1 = .ok p) :
    Nameable s ∧ fault? = none := by
  obtain ⟨nameable, changed⟩ := Nameable.of_prepare (Moment.prepare_eq_ok prepared).1
  refine ⟨nameable, ?_⟩
  cases fault? with
  | none => rfl
  | some text =>
    simp only [Moment.prepare, Moment.settle, if_neg changed] at prepared
    cases prepared

end Sqlite

namespace Residence

variable {s : Residence} {r : Repository Handle α} {w v : World}

/-- On a session over a new database a repository starts iff the database accepts the names and can
be changed. -/
theorem starts_iff_nameable {site : World.Site} {i now : Nat} (narrow : r.schema.Narrow)
    (opened : w.openSqlite s.clock s.config = (.ok (.sqlite i), v))
    (new : v.Open site i ⟨.fresh, .empty, now⟩) :
    (∃ running, (s.start r w).1 = .ok running) ↔
      Sqlite.Nameable r.schema ∧ site.fault? = none := by
  obtain ⟨r', u, interrupt, schema, -, obtained, startEq⟩ := start_of_opened opened r
  constructor
  · rintro ⟨running, started⟩
    obtain ⟨session, w₁, statements, w₂, obtained', prepared, -, -⟩ :=
      Repository.start_eq_ok (Prod.ext ((congrArg Prod.fst startEq.symm).trans started) rfl)
    cases obtained.symm.trans obtained'
    obtain ⟨w₃, -, -, -, first, -⟩ := Repository.prepareAll_eq_ok_iff.mp prepared
    obtain ⟨x, answered, -⟩ := new.prepare (r'.schema.template .insert)
    rw [← schema]
    exact Sqlite.Moment.prepare_new
      ((congrArg Prod.fst answered).symm.trans (congrArg Prod.fst first))
  · rintro ⟨nameable, free⟩
    -- Each preparation goes as it does on the session alone.
    let Good (x : World) : Prop := ∃ m : Sqlite.Moment,
      m.Ready (fun _ => []) r.schema ∧ x.Open site i m
    have prepares (kind : StatementKind) (x : World) (good : Good x) : ∃ p x',
        (World.host interrupt s.ties).prepare (.sqlite i) (r'.schema.template kind) x =
          (.ok p, x') ∧ True ∧ Good x' := by
      obtain ⟨m, ready, isOpen⟩ := good
      obtain ⟨p, c, db, prepared, ready'⟩ := ready.prepare ⟨nameable, narrow⟩ kind
      obtain ⟨x', answered, isOpen'⟩ := isOpen.prepare (r.schema.template kind)
      rw [free, Sqlite.Moment.prepare_free, prepared] at answered isOpen'
      exact ⟨p, x', by rw [schema]; exact answered, trivial, _, ready', isOpen'⟩
    obtain ⟨statements, x, prepared, -, -⟩ := Repository.prepareAll_ok (fun _ _ => True) Good
      prepares ⟨_, Sqlite.ready_initial now r.schema, new⟩
    obtain ⟨w', begun, -⟩ := Repository.start_run (I := fun _ => True) obtained prepared
      (fun _ _ _ => trivial) trivial
    exact ⟨_, congrArg Prod.fst (startEq.trans begun)⟩

/-- A repository with a session of its own finds none exactly if the file cannot be opened. -/
theorem start_unreachable_iff (own : r.source = .owned) (cause : SessionError) :
    (s.start r w).1 = .error (.startup (.unreachable cause)) ↔
      ∃ e, (w.openSqlite s.clock s.config).1 = .error e ∧ e.toSessionError = cause := by
  obtain ⟨interrupt, host⟩ := World.hostAt_eq w.pendingCount s.ties
  unfold start
  simp only [own, World.run, host, r.start_unreachable_iff, true_and]
  show ((w.openSqlite s.clock s.config).1.mapError _) = _ ↔ _
  cases (w.openSqlite s.clock s.config).1 with
  | error e => simp [Except.mapError]
  | ok session => simp [Except.mapError]

end Residence

/-! ### Deploying a configuration -/

namespace Config

/-- Opening a sink leaves the directories, and where there was nothing, there is nothing but perhaps
the file of the sink. -/
theorem AuditSink.Opening.cases_files {a : AuditSink} {files files' : Files}
    {outcome : Except ConfigError Audit.Sink} (opening : a.Opening files outcome files') :
    files.Alike files' ∧ ∀ place, files.at? place = none → files'.Vacant place := by
  cases opening with
  | opened filed named found => exact Files.openLog?_cases found
  | refused filed named absent => exact ⟨.refl _, fun place absent => .inl absent⟩
  | errorOutput kind => exact ⟨.refl _, fun place absent => .inl absent⟩
  | silent kind => exact ⟨.refl _, fun place absent => .inl absent⟩

/-- A text is accepted if the configuration in it is. -/
theorem validate_of_ofText {text : String} {files : Files} {c : Config}
    (accepted : ofText text files = .ok c) : c.validate .standard files = .ok () := by
  unfold ofText at accepted
  split at accepted
  · cases accepted
  · split at accepted
    · cases accepted
    · obtain ⟨_, valid, rfl⟩ := map_eq_ok_iff.mp accepted
      exact valid

theorem prefixEntries_length {pairs : List (String × Value)} {entries : List PrefixColumn}
    (named : prefixEntries pairs = .ok entries) : entries.length = pairs.length := by
  induction pairs generalizing entries with
  | nil =>
    cases named
    rfl
  | cons pair rest ih =>
    simp only [prefixEntries, bind_eq_ok_iff] at named
    obtain ⟨column, -, others, read, entriesEq⟩ := named
    rw [← Except.ok.inj entriesEq, List.length_cons, List.length_cons, ih read]

/-- The prefix columns of a configuration are few enough for every statement. -/
theorem narrow_of_settings {c : Config} {schema : Schema}
    (described : c.settings = .ok schema.settings) : schema.Narrow := by
  unfold settings Table.settings at described
  have few : c.repository.fixedPrefix.length ≤ maxPrefixColumns := by
    by_contra many
    rw [if_pos (Nat.not_le.mp many)] at described
    cases described
  rw [if_neg (Nat.not_lt.mpr few)] at described
  simp only [bind_eq_ok_iff] at described
  obtain ⟨table, -, entries, named, fixed, made, key, -, id, -, payload, -, -, -, settingsEq⟩ :=
    described
  have entries' : schema.settings.fixedPrefix.entries = entries := by
    rw [← Except.ok.inj settingsEq]
    exact FixedPrefix.ofEntries_eq_ok_iff.mp (mapError_eq_ok_iff.mp made)
  have count : schema.prefixSpecs.length = c.repository.fixedPrefix.length := by
    rw [← prefixEntries_length named, ← entries']
    simp [Schema.prefixSpecs]
  unfold Schema.Narrow Sqlite.maxConditions
  unfold maxPrefixColumns at few
  omega

/-- Build what a configuration describes, and start it. -/
def deploy (c : Config) (codec : Codec Exchange) (w : World) :
    Except ConfigError (Except RepositoryError (Running Handle Exchange)) × World :=
  match c.build codec .standard w.files with
  | (.error e, files) => (.error e, { w with files })
  | (.ok a, files) =>
    let (started, w) := World.run { w with files } ⟨a.connector, .system, a.sink⟩ a.repository.start
    (.ok started, w)

/-- A path leads to a place where there is nothing yet, and the database takes it for a path. -/
structure Awaits (files : Files) (path : String) (place : Place) : Prop where
  found : files.locate path = some place
  absent : files.at? place = none
  /-- A path that begins so is read as an address. -/
  plain : ¬"file:".toList <+: path.toList

variable {text path : String} {c : Config} {w : World} {place : Place} {timeout : Nat}
  {mode : Sqlite.JournalMode}

/-- An accepted configuration of the database backend is built and, on a new file, starts exactly if
the database accepts the names of the table and its columns, the waiting time is within the limit
of the driver, and what opening and changing the database need beside the file can be there.  The
driver panics over the waiting time, for which the error `World.tooPatient` stands here, exactly if
it is too long and the file could be opened; every other failure is an error of the start. -/
theorem deploys_iff_creatable (codec : Codec Exchange)
    (accepted : ofText text w.files = .ok c) (database : c.session.backend = "sqlite")
    (named : Backend.text? c.session.options "path" = some path)
    (awaits : Awaits w.files path place)
    (waits : Backend.busyTimeout c.session.options = .ok timeout)
    (journals : Backend.journalMode c.session.options = .ok mode)
    (opens : ∃ sink, (c.audit.open w.files).1 = .ok sink) :
    ∃ (schema : Schema) (started : Except RepositoryError (Running Handle Exchange)) (v : World),
      c.settings = .ok schema.settings ∧ c.deploy codec w = (.ok started, v) ∧
      ((∃ running, started = .ok running) ↔
        Sqlite.Nameable schema ∧ timeout ≤ World.maxBusyTimeout ∧ (path = World.privatePath ∨
          World.Openable w.files mode place ∧ World.Writable w.files mode place)) ∧
      (started = .error (.startup (.unreachable World.tooPatient.toSessionError)) ↔
        World.maxBusyTimeout < timeout ∧
          (path = World.privatePath ∨ World.Openable w.files mode place)) ∧
      ∀ e, started = .error e → ∃ cause, e = .startup cause := by
  have valid := validate_of_ofText accepted
  obtain ⟨⟨schema, described⟩, ⟨connector, made⟩, sound⟩ := validate_eq_ok_iff.mp valid
  obtain ⟨-, store, configured, rfl⟩ := (connector_sqlite_iff database).mp made
  obtain ⟨text', -, waits', journals', -, checked⟩ := sqliteConfig_eq_ok_iff.mp configured
  obtain rfl : path = store.path := Option.some.inj (named.symm.trans text')
  obtain rfl : timeout = store.busyTimeout := Except.ok.inj (waits.symm.trans waits')
  obtain rfl : mode = store.journal := Except.ok.inj (journals.symm.trans journals')
  obtain ⟨sink, opened⟩ := opens
  obtain ⟨alike, vacant⟩ := (AuditSink.opening sound w.files).cases_files
  let u : World := { w with files := (c.audit.open w.files).2 }
  let s : Residence := ⟨store, .system, sink⟩
  let r : Repository Handle Exchange := ⟨schema, codec, .owned⟩
  have built : c.build codec .standard w.files = (.ok ⟨r, .sqlite store, sink⟩, u.files) := by
    rw [build_of_accepted valid described made, opened]
    rfl
  have found : u.files.locate store.path = some place :=
    Files.locate_within alike.within awaits.found
  have free : u.files.Vacant place := vacant place awaits.absent
  have unreachable := s.start_unreachable_iff (r := r) (w := u) rfl
  rw [← World.openable_alike alike, ← World.writable_alike alike, or_and_left,
    ← World.siteOf_fault?_eq_none_iff .system]
  change ∃ _ _ _, _ ∧ _ ∧ (_ ↔ _ ∧ _ ∧ World.Opens u.files store place ∧ _) ∧
    (_ ↔ _ ∧ World.Opens u.files store place) ∧ _
  refine ⟨schema, (s.start r u).1, (s.start r u).2, described, by rw [deploy, built]; rfl, ?_⟩
  rw [unreachable, ← and_assoc]
  refine ⟨?_, fun e failed => (r.startsOrderly _ u).startup e failed⟩
  -- A session that is not opened starts nothing.
  have unopened {e : Sqlite.OpenError} (failed : (u.openSqlite .system store).1 = .error e) :
      ¬∃ running, (s.start r u).1 = .ok running := by
    rintro ⟨running, started⟩
    obtain ⟨session, v, connected⟩ := Residence.opened_of_start (Prod.ext started rfl)
    rw [show u.openSqlite .system store = (.ok session, v) from connected] at failed
    cases failed
  rcases World.openSqlite_new .system checked found free with
    ⟨opens, patient, v, connected, new⟩ | ⟨opens, impatient, failed⟩ | ⟨closed, failed⟩
  · constructor
    · rw [s.starts_iff_nameable (narrow_of_settings described) connected new,
        and_iff_right opens, and_iff_right patient]
    · refine iff_of_false ?_ fun both => absurd both.1 (Nat.not_lt.mpr patient)
      rintro ⟨e, failed, -⟩
      rw [show u.openSqlite s.clock s.config = _ from connected] at failed
      cases failed
  · exact ⟨iff_of_false (unopened failed) fun all => absurd all.2.1 (Nat.not_le.mpr impatient),
      iff_of_true ⟨_, failed, rfl⟩ ⟨impatient, opens⟩⟩
  · refine ⟨iff_of_false (unopened failed) fun all => closed all.2.2.1,
      iff_of_false ?_ fun both => closed both.2⟩
    rintro ⟨e, failed', errorEq⟩
    cases failed.symm.trans failed'
    exact absurd errorEq (by decide)

/-! ### Configurations that are accepted -/

/-- A configuration of a table in a new database file, with some more options of the session. -/
def textFor (table options : String) : String :=
  "[repository]\ntable = \"" ++ table ++
    "\"\n[session]\nbackend = \"sqlite\"\n[session.options]\npath = \"results.db\"\n" ++ options

/-- The outcome of starting a configuration that has been built: an error, or none. -/
def outcome? (c : Config) (w : World) : Option (Option RepositoryError) :=
  match (c.deploy (Payload.codec Payload.defaultLimit) w).1 with
  | .ok (.ok _) => some none
  | .ok (.error e) => some (some e)
  | .error _ => none

theorem awaits_fresh : Awaits .fresh "results.db" ["work", "results.db"] := by
  constructor <;> decide +kernel

/-- A configuration of a new database, without an audit file, in an empty working directory. -/
structure Plain (timeout : Nat) (outcome : Option RepositoryError) (c : Config) : Prop where
  database : c.session.backend = "sqlite"
  named : Backend.text? c.session.options "path" = some "results.db"
  waits : Backend.busyTimeout c.session.options = .ok timeout
  journals : Backend.journalMode c.session.options = .ok .wal
  silent : c.audit = {}
  comes : c.outcome? (.fresh 0 0 .fresh) = some outcome

theorem plain_iff {timeout : Nat} {outcome : Option RepositoryError} {c : Config} :
    c.Plain timeout outcome ↔ c.session.backend = "sqlite" ∧
      Backend.text? c.session.options "path" = some "results.db" ∧
      Backend.busyTimeout c.session.options = .ok timeout ∧
      Backend.journalMode c.session.options = .ok .wal ∧ c.audit = {} ∧
      c.outcome? (.fresh 0 0 .fresh) = some outcome :=
  ⟨fun h => ⟨h.database, h.named, h.waits, h.journals, h.silent, h.comes⟩,
    fun h => ⟨h.1, h.2.1, h.2.2.1, h.2.2.2.1, h.2.2.2.2.1, h.2.2.2.2.2⟩⟩

instance (timeout : Nat) (outcome : Option RepositoryError) (c : Config) :
    Decidable (c.Plain timeout outcome) := decidable_of_iff' _ plain_iff

theorem exists_of_any {text : String} {timeout : Nat} {outcome : Option RepositoryError}
    (found : (ofText text .fresh).toOption.any (fun c => decide (c.Plain timeout outcome)) = true) :
    ∃ c, ofText text .fresh = .ok c ∧ c.Plain timeout outcome := by
  cases read : ofText text .fresh with
  | error e =>
    rw [read] at found
    cases found
  | ok c =>
    rw [read] at found
    exact ⟨c, rfl, of_decide_eq_true found⟩

/-- A plain table is started, so the database accepts its names. -/
theorem deploys_iff_creatable_plain : ∃ (c : Config) (schema : Schema)
    (running : Running Handle Exchange) (v : World),
    ofText (textFor "results" "") .fresh = .ok c ∧ c.Plain Sqlite.defaultBusyTimeout none ∧
    Awaits .fresh "results.db" ["work", "results.db"] ∧ c.settings = .ok schema.settings ∧
    c.deploy (Payload.codec Payload.defaultLimit) (.fresh 0 0 .fresh) = (.ok (.ok running), v) ∧
    Sqlite.Nameable schema := by
  have run : (ofText (textFor "results" "") .fresh).toOption.any
      (fun c => decide (c.Plain Sqlite.defaultBusyTimeout none)) = true := by decide +kernel
  obtain ⟨c, accepted, plain⟩ := exists_of_any run
  obtain ⟨schema, started, v, described, deployed, exact, -⟩ :=
    deploys_iff_creatable (w := .fresh 0 0 .fresh) (Payload.codec Payload.defaultLimit) accepted
      plain.database plain.named awaits_fresh plain.waits plain.journals
      ⟨.none, by rw [plain.silent]; rfl⟩
  have comes := plain.comes
  rw [outcome?, deployed] at comes
  cases started with
  | error e => cases comes
  | ok running =>
    exact ⟨c, schema, running, v, accepted, plain, awaits_fresh, described, deployed,
      (exact.mp ⟨running, rfl⟩).1⟩

/-- A waiting time above the limit is accepted, and the driver panics over it. -/
theorem overlong_wait_panics : ∃ (c : Config) (v : World),
    ofText (textFor "results" "busy_timeout_ms = 2147483648\n") .fresh = .ok c ∧
    c.session.backend = "sqlite" ∧
    Backend.text? c.session.options "path" = some "results.db" ∧
    Awaits .fresh "results.db" ["work", "results.db"] ∧
    Backend.busyTimeout c.session.options = .ok 2147483648 ∧
    Backend.journalMode c.session.options = .ok .wal ∧ (c.audit.open .fresh).1 = .ok .none ∧
    c.deploy (Payload.codec Payload.defaultLimit) (.fresh 0 0 .fresh) =
      (.ok (.error (.startup (.unreachable World.tooPatient.toSessionError))), v) := by
  have run : (ofText (textFor "results" "busy_timeout_ms = 2147483648\n") .fresh).toOption.any
      (fun c => decide (c.Plain 2147483648
        (some (.startup (.unreachable World.tooPatient.toSessionError))))) = true := by
    decide +kernel
  obtain ⟨c, accepted, plain⟩ := exists_of_any run
  rcases deployed : c.deploy (Payload.codec Payload.defaultLimit) (.fresh 0 0 .fresh) with
    ⟨built, v⟩
  have comes := plain.comes
  rw [outcome?, deployed] at comes
  rcases built with e | (e | running)
  · cases comes
  · obtain rfl := Option.some.inj (Option.some.inj comes)
    exact ⟨c, v, accepted, plain.database, plain.named, awaits_fresh, plain.waits, plain.journals,
      by rw [plain.silent]; rfl, deployed⟩
  · cases comes

/-- A qualified table is accepted as well, and refused only when the insert is prepared. -/
example : (ofText (textFor "ks.results" "") .fresh).toOption.any (fun c =>
    decide (c.Plain Sqlite.defaultBusyTimeout (some (.startup (.refused .insert
      (.unsupported "sqlite tables cannot be keyspace-qualified: ks.results") none))))) = true := by
  decide +kernel

end Config

end GroupStore
