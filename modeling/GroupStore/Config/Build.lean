import GroupStore.Backend
import GroupStore.Repository
import GroupStore.Payload

/-!
# From a configuration to a repository

* `Config.validate` — settings, backend and options, audit sink, in this order;
* `Config.build` — validate, then put a repository together that owns its session;
* `Config.load` — read a configuration file and validate it.
-/

namespace GroupStore

/-- A repository with the places that it gets its session from and sends its events to. -/
structure Assembly where
  /-- The stopped repository. -/
  repository : Repository Handle Exchange
  /-- How its session is obtained, if it owns it. -/
  connector : Connector
  /-- Where its events go. -/
  sink : Audit.Sink

namespace Config

/-- Validate a configuration against a registry. -/
def validate (c : Config) (registry : Registry) (files : Files) : Except ConfigError Unit := do
  let _ ← c.settings
  let backend ← registry.resolve c.session.backend
  backend.validate files c.session.options
  c.audit.check

/-- What a configuration describes without its sink. -/
def plan (c : Config) (registry : Registry) (files : Files) :
    Except ConfigError (Settings × Connector) := do
  c.validate registry files
  let settings ← c.settings
  let connector ← registry.connector files c.session
  return (settings, connector)

/-- Build the repository that a configuration describes.  The file of the audit sink is opened once
settings and connector are there, and the repository is put together last. -/
def build (c : Config) (codec : Codec Exchange) (registry : Registry) (files : Files) :
    Except ConfigError Assembly × Files :=
  match c.plan registry files with
  | .error e => (.error e, files)
  | .ok (settings, connector) =>
    match c.audit.open files with
    | (.error e, files') => (.error e, files')
    | (.ok sink, files') =>
      match Repository.ofSettings settings codec .owned with
      | .error e => (.error (.invalid (.repository e.message)), files')
      | .ok repository => (.ok ⟨repository, connector, sink⟩, files')

/-! ### Reading files -/

/-- The greatest size of a configuration text in bytes. -/
def maxTextBytes : Nat := 1024 * 1024

/-- Read and validate the text of a configuration. -/
def ofText (text : String) (files : Files) : Except ConfigError Config :=
  if maxTextBytes < text.utf8ByteSize then .error (.invalid .fileTooLarge)
  else
    match parse? text with
    | none => .error .malformed
    | some c => (c.validate .standard files).map fun _ => c

/-- Where the configuration is unless it is said. -/
def defaultPath : String := "aggregation-store.toml"

/-- The variable of the environment that may say where the configuration is. -/
def pathVariable : String := "AGGREGATION_STORE_CONFIG"

/-- Where the configuration is: as given, else as the environment has it, else the usual place. -/
def resolvePath (given environment : Option String) : Except ConfigError String :=
  match given, environment with
  | some path, _ => .ok path
  | none, some path =>
    if Path.maxBytes < path.utf8ByteSize then .error (.invalid .configPathTooLong) else .ok path
  | none, none => .ok defaultPath

/-- Check the length of the path of a configuration file. -/
def checkConfigPath (path : String) : Except ConfigError Unit :=
  match Path.sizeFault? path with
  | some .path => .error (.invalid .configPathTooLong)
  | some .component => .error (.invalid .configComponentTooLong)
  | none => .ok ()

/-- Read and validate the content of a configuration file. -/
def ofBytes (content : ByteArray) (files : Files) : Except ConfigError Config :=
  if maxTextBytes < content.size then .error (.invalid .fileTooLarge)
  else
    match String.fromUTF8? content with
    | none => .error (.invalid .notText)
    | some text => ofText text files

/-- Read and validate a configuration file. -/
def load (given environment : Option String) (files : Files) : Except ConfigError Config := do
  let path ← resolvePath given environment
  checkConfigPath path
  match files.read? path with
  | none => throw .unreadable
  | some content => ofBytes content files

end Config

end GroupStore
