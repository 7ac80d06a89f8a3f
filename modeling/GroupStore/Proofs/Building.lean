import GroupStore.Config.Build
import GroupStore.Proofs.Schema

/-!
# Validated configurations are built

Validation and building check a configuration separately: settings, backend, options, connector
and audit sink, in one order.  A configuration that validation refuses is not built, for the same
reason, and leaves the files as they are.  Of one that it accepts, only the audit file may still
fail to open.

* `Config.validate_eq_ok_iff` — what validation finds in a configuration that it accepts;
* `Config.connector_sqlite_iff` — what it finds in the options of the database backend;
* `Config.AuditSink.Opening` — how a checked sink opens;
* `Config.build_agrees_with_validate` — building agrees with validating.
-/

namespace GroupStore

/-- Settings that pass their check are those of a schema. -/
theorem Settings.exists_schema {settings : Settings} (passed : settings.check = .ok ()) :
    ∃ schema : Schema, schema.settings = settings :=
  ⟨⟨settings, passed⟩, rfl⟩

/-- A repository is made of every schema's settings. -/
theorem Repository.ofSettings_schema {S α : Type} (schema : Schema) (codec : Codec α)
    (source : Source S) :
    Repository.ofSettings schema.settings codec source = .ok ⟨schema, codec, source⟩ := by
  have made : Schema.ofSettings schema.settings = .ok schema :=
    Schema.ofSettings_eq_ok_iff.mpr rfl
  rw [Repository.ofSettings, made]

namespace Config

variable {c : Config} {codec : Codec Exchange} {registry : Registry} {files : Files}

/-! ### What validation finds -/

/-- The settings that the repository part describes have been checked last. -/
theorem Table.check_of_settings {t : Table} {settings : Settings}
    (described : t.settings = .ok settings) : settings.check = .ok () := by
  unfold Table.settings at described
  split at described
  · cases described
  · simp only [bind_eq_ok_iff, inField, mapError_eq_ok_iff] at described
    obtain ⟨_, -, _, -, _, -, _, -, _, -, _, -, _, passed, settingsEq⟩ := described
    exact Except.ok.inj settingsEq ▸ passed

/-- Validation makes the settings and the connector, and checks the sink. -/
theorem validate_eq_ok_iff : c.validate registry files = .ok () ↔
    (∃ schema : Schema, c.settings = .ok schema.settings) ∧
    (∃ connector, registry.connector files c.session = .ok connector) ∧
    c.audit.check = .ok () := by
  simp only [validate, Registry.connector, Backend.validate, bind_eq_ok_iff, map_eq_ok_iff]
  constructor
  · rintro ⟨settings, described, backend, known, ⟨⟩, ⟨connector, made, -⟩, sound⟩
    obtain ⟨schema, rfl⟩ := Settings.exists_schema (Table.check_of_settings described)
    exact ⟨⟨schema, described⟩, ⟨connector, backend, known, made⟩, sound⟩
  · rintro ⟨⟨schema, described⟩, ⟨connector, backend, known, made⟩, sound⟩
    exact ⟨_, described, backend, known, (), ⟨connector, made, trivial⟩, sound⟩

/-- What the options of the database backend come to. -/
theorem sqliteConfig_eq_ok_iff {options : Toml.Entries} {store : Sqlite.Config} :
    Backend.sqliteConfig files options = .ok store ↔
      Backend.text? options "path" = some store.path ∧
      checkPath "session.options.path" store.path = .ok () ∧
      Backend.busyTimeout options = .ok store.busyTimeout ∧
      Backend.journalMode options = .ok store.journal ∧
      Backend.syncMode options = .ok store.sync ∧ store.check files = .ok () := by
  have named {path : String} :
      Backend.storePath options = .ok path ↔ Backend.text? options "path" = some path := by
    unfold Backend.storePath
    cases Backend.text? options "path" <;> simp
  simp only [Backend.sqliteConfig, bind_eq_ok_iff, mapError_eq_ok_iff, named]
  constructor
  · rintro ⟨path, text, ⟨⟩, bounded, _, waits, _, journals, _, syncs, ⟨⟩, sound, storeEq⟩
    obtain rfl := Except.ok.inj storeEq
    exact ⟨text, bounded, waits, journals, syncs, sound⟩
  · rintro ⟨text, bounded, waits, journals, syncs, sound⟩
    exact ⟨_, text, (), bounded, _, waits, _, journals, _, syncs, (), sound, rfl⟩

/-- The connector of the database backend. -/
theorem connector_sqlite_iff {connector : Connector} (database : c.session.backend = "sqlite") :
    Registry.standard.connector files c.session = .ok connector ↔
      Backend.sqlite.checkOptions c.session.options = .ok () ∧
      ∃ store, Backend.sqliteConfig files c.session.options = .ok store ∧
        connector = .sqlite store := by
  have known : Registry.standard.resolve c.session.backend = .ok .sqlite := by
    rw [database]
    rfl
  have made : Backend.sqlite.make files c.session.options =
      (Backend.sqliteConfig files c.session.options).map .sqlite := rfl
  simp only [Registry.connector, Backend.connector, bind_eq_ok_iff, known, Except.ok.injEq,
    exists_eq_left', made, map_eq_ok_iff]
  constructor
  · rintro ⟨⟨⟩, declared, store, configured, connectorEq⟩
    exact ⟨declared, store, configured, connectorEq.symm⟩
  · rintro ⟨declared, store, configured, connectorEq⟩
    exact ⟨(), declared, store, configured, connectorEq.symm⟩

/-! ### How a sink opens -/

/-- How a sink opens whose path has been checked: the file sink opens its file, which may fail and
leaves the files as they are then, and no other sink does anything to the files. -/
inductive AuditSink.Opening (a : AuditSink) (files : Files) :
    Except ConfigError Audit.Sink → Files → Prop where
  | opened {path : String} {place : Place} {files' : Files} (filed : a.sink = .file)
      (named : a.path = some path) (found : files.openLog? path = some (place, files')) :
      a.Opening files (.ok (.file place)) files'
  | refused {path : String} (filed : a.sink = .file) (named : a.path = some path)
      (absent : files.openLog? path = none) : a.Opening files (.error .unreadable) files
  | errorOutput (kind : a.sink = .stderr) : a.Opening files (.ok .errorOutput) files
  | silent (kind : a.sink = .none) : a.Opening files (.ok .none) files

theorem AuditSink.opening {a : AuditSink} (sound : a.check = .ok ()) (files : Files) :
    a.Opening files (a.open files).1 (a.open files).2 := by
  rw [AuditSink.open, sound]
  cases kind : a.sink with
  | none => exact .silent kind
  | stderr => exact .errorOutput kind
  | file =>
    cases named : a.path with
    | none => simp [AuditSink.check, kind, named] at sound
    | some path =>
      cases found : files.openLog? path with
      | none => simpa [found] using .refused kind named found
      | some log => simpa [found] using .opened kind named found

/-! ### What is built -/

/-- A configuration that validation refuses is not built. -/
theorem build_of_refused {e : ConfigError} (refused : c.validate registry files = .error e) :
    c.build codec registry files = (.error e, files) := by
  rw [build, plan, refused]
  rfl

/-- An accepted configuration is built of its settings, its connector and its opened sink. -/
theorem build_of_accepted {schema : Schema} {connector : Connector}
    (accepted : c.validate registry files = .ok ())
    (described : c.settings = .ok schema.settings)
    (made : registry.connector files c.session = .ok connector) :
    c.build codec registry files =
      ((c.audit.open files).1.map fun sink => ⟨⟨schema, codec, .owned⟩, connector, sink⟩,
        (c.audit.open files).2) := by
  have planned : c.plan registry files = .ok (schema.settings, connector) := by
    rw [plan, accepted, described, made]
    rfl
  rw [build, planned]
  obtain ⟨outcome, files'⟩ := c.audit.open files
  cases outcome with
  | error e => rfl
  | ok sink => simp only [Repository.ofSettings_schema]; rfl

/-- Building agrees with validating, whatever the registry.  What validation refuses is not built,
for the same reason, and no file is touched.  Of what it accepts, the repository owns its session
and has the described settings, and nothing but opening the audit file can fail. -/
theorem build_agrees_with_validate (c : Config) (codec : Codec Exchange) (registry : Registry)
    (files : Files) :
    match c.validate registry files with
    | .error e => c.build codec registry files = (.error e, files)
    | .ok () => ∃ (schema : Schema) (connector : Connector),
      c.settings = .ok schema.settings ∧
      registry.connector files c.session = .ok connector ∧
      ∃ (outcome : Except ConfigError Audit.Sink) (files' : Files),
        c.audit.Opening files outcome files' ∧
        c.build codec registry files =
          (outcome.map fun sink => ⟨⟨schema, codec, .owned⟩, connector, sink⟩, files') := by
  split
  · rename_i e refused
    exact build_of_refused refused
  · rename_i accepted
    obtain ⟨⟨schema, described⟩, ⟨connector, made⟩, sound⟩ := validate_eq_ok_iff.mp accepted
    exact ⟨schema, connector, described, made, _, _, AuditSink.opening sound files,
      build_of_accepted accepted described made⟩

end Config

end GroupStore
