import GroupStore.Config.Check
import GroupStore.Connector

/-!
# Session backends

A backend has a name, declares the options that it takes, and makes a connector of them.  A
registry knows backends by their names.

* `Backend.checkOptions` — names and types of all options first, then the presence of required
  ones;
* `Backend.validate`, `Backend.connector` — the check, then the making of the connector;
* `Registry.standard` — the memory backend and the database backend.
-/

namespace GroupStore

/-- A declared option. -/
structure DeclaredOption where
  name : String
  kind : OptionKind
  required : Bool
deriving DecidableEq

/-- A backend. -/
structure Backend where
  name : String
  /-- The options that it takes. -/
  declared : List DeclaredOption
  /-- Make a connector of options, in view of a file tree. -/
  make : Files → Toml.Entries → Except ConfigError Connector

namespace Backend

/-- The first option that is not declared or has another type than its first declaration. -/
def strayOption? (b : Backend) : Toml.Entries → Option ConfigFault
  | [] => none
  | (name, value) :: rest =>
    match b.declared.find? fun option => option.name = name with
    | none => some (.unsupportedOption name b.name)
    | some option =>
      if option.kind.admits value then b.strayOption? rest
      else some (.optionType name option.kind)

/-- The first required option that is missing. -/
def missingOption? (b : Backend) (options : Toml.Entries) : Option ConfigFault :=
  (b.declared.find? fun option => option.required && !Sorted.has option.name options).map
    fun option => .missingOption option.name b.name

/-- Check options against the declared ones. -/
def checkOptions (b : Backend) (options : Toml.Entries) : Except ConfigError Unit :=
  match (b.strayOption? options).or (b.missingOption? options) with
  | some fault => .error (.invalid fault)
  | none => .ok ()

/-- Check options and make a connector of them. -/
def connector (b : Backend) (files : Files) (options : Toml.Entries) :
    Except ConfigError Connector := do
  b.checkOptions options
  b.make files options

/-- Check options, also by making a connector of them. -/
def validate (b : Backend) (files : Files) (options : Toml.Entries) : Except ConfigError Unit :=
  (b.connector files options).map fun _ => ()

/-! ### The memory backend -/

/-- The backend of sessions in memory; it takes no options. -/
def memory : Backend := ⟨"memory", [], fun _ _ => .ok .memory⟩

/-! ### The database backend -/

/-- The text of an option. -/
def text? (options : Toml.Entries) (name : String) : Option String :=
  (Sorted.get? name options).bind Toml.Value.text?

/-- The waiting time among options. -/
def busyTimeout (options : Toml.Entries) : Except ConfigError Nat :=
  match Sorted.get? "busy_timeout_ms" options with
  | some (.integer (.ofNat value)) => .ok value
  | some (.integer _) => .error (.invalid .negativeTimeout)
  | _ => .ok Sqlite.defaultBusyTimeout

/-- The journal mode among options. -/
def journalMode (options : Toml.Entries) : Except ConfigError Sqlite.JournalMode :=
  match text? options "journal_mode" with
  | none => .ok .wal
  | some word =>
    match Sqlite.JournalMode.ofLabel? word with
    | some mode => .ok mode
    | none => .error (.invalid (.journalMode word))

/-- The sync mode among options. -/
def syncMode (options : Toml.Entries) : Except ConfigError Sqlite.SyncMode :=
  match text? options "sync_mode" with
  | none => .ok .full
  | some word =>
    match Sqlite.SyncMode.ofLabel? word with
    | some mode => .ok mode
    | none => .error (.invalid (.syncMode word))

/-- The path among options. -/
def storePath (options : Toml.Entries) : Except ConfigError String :=
  match text? options "path" with
  | none => .error (.invalid (.absentOption "path"))
  | some path => .ok path

/-- The session configuration that options describe.  The path is checked before the other
options, and what it names after them. -/
def sqliteConfig (files : Files) (options : Toml.Entries) : Except ConfigError Sqlite.Config := do
  let path ← storePath options
  Config.checkPath "session.options.path" path
  let busyTimeout ← busyTimeout options
  let journal ← journalMode options
  let sync ← syncMode options
  let config : Sqlite.Config := ⟨path, busyTimeout, journal, sync⟩
  (config.check files).mapError fun fault => .invalid (.store fault)
  return config

/-- The backend of sessions over a database file. -/
def sqlite : Backend where
  name := "sqlite"
  declared := [⟨"path", .string, true⟩, ⟨"busy_timeout_ms", .integer, false⟩,
    ⟨"journal_mode", .string, false⟩, ⟨"sync_mode", .string, false⟩]
  make files options := (sqliteConfig files options).map .sqlite

end Backend

/-! ### Registries -/

/-- Backends by name. -/
structure Registry where
  /-- The backends in ascending order of their names. -/
  backends : List (String × Backend)

namespace Registry

/-- No backends. -/
def empty : Registry := ⟨[]⟩

/-- The backends that are always there. -/
def standard : Registry := ⟨[("memory", .memory), ("sqlite", .sqlite)]⟩

/-- Add a backend under its name, which must not be blank and not be taken. -/
def register (r : Registry) (b : Backend) : Except ConfigError Registry :=
  if trimmed b.name = "" then .error (.invalid .blankBackend)
  else if Sorted.has b.name r.backends then .error (.invalid (.takenBackend b.name))
  else .ok ⟨Sorted.put b.name b r.backends⟩

/-- The names of the backends, in order. -/
def names (r : Registry) : List String := r.backends.map Prod.fst

/-- The backend of a name. -/
def resolve (r : Registry) (name : String) : Except ConfigError Backend :=
  match Sorted.get? name r.backends with
  | some b => .ok b
  | none => .error (.invalid (.unknownBackend name r.names))

/-- The connector that the session part of a configuration describes. -/
def connector (r : Registry) (files : Files) (s : Config.Session) :
    Except ConfigError Connector := do
  let backend ← r.resolve s.backend
  backend.connector files s.options

end Registry

end GroupStore
