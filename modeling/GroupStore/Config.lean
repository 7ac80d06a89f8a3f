import GroupStore.Audit.Sink
import GroupStore.Settings
import GroupStore.Toml.Document

/-!
# Configuration documents

A configuration has three parts: the repository's table, columns and levels, the session backend
with its options, and the audit sink.  Reading a document checks its shape only, whether every
field is known, of the right type and, where it has no default, present; what the values mean is
checked afterwards.

A part may also be written as an array of its values in the declared order, from which values may
be missing at the end and in which values beyond the last field do not count.

* `Config` and its parts, as they are written;
* `Config.parse?` — read a document.
-/

namespace GroupStore

/-! ### The parts -/

/-- The repository's table, columns and levels. -/
structure Config.Table where
  table : String
  keyColumn : String := defaultKeyColumn.text
  exchangeIdColumn : String := defaultExchangeIdColumn.text
  payloadColumn : String := defaultPayloadColumn.text
  ttlSeconds : Option Nat := none
  readConsistency : Consistency := default
  writeConsistency : Consistency := default
  /-- Prefix columns with their values, in key order. -/
  fixedPrefix : List (String × Value) := []
deriving DecidableEq

/-- The backend that is used unless another is named. -/
def Config.defaultBackend : String := "memory"

/-- The session backend and its options. -/
structure Config.Session where
  backend : String := Config.defaultBackend
  /-- Options in ascending order of their names. -/
  options : Toml.Entries := []

/-- The audit sink. -/
structure Config.AuditSink where
  sink : Audit.SinkKind := .none
  /-- The file of the file sink. -/
  path : Option String := none
deriving DecidableEq

/-- A configuration as it is written. -/
structure Config where
  repository : Config.Table
  session : Config.Session := {}
  audit : Config.AuditSink := {}

namespace Config

open Toml (Entries)

/-! ### Reading records -/

/-- The values of fields by their place in an array. -/
def ofItems : List String → List Toml.Value → List (Option Toml.Value)
  | [], _ => []
  | _ :: names, [] => none :: ofItems names []
  | _ :: names, item :: items => some item :: ofItems names items

/-- The values of the fields of a record; none if it has a field that is not known. -/
def slots? (names : List String) : Toml.Value → Option (List (Option Toml.Value))
  | .table entries =>
    if entries.all fun entry => names.contains entry.1 then
      some (names.map fun name => Sorted.get? name entries)
    else none
  | .array items => some (ofItems names items)
  | _ => none

/-- Read a field that has a default. -/
def readOr (usual : α) (read : Toml.Value → Option α) : Option Toml.Value → Option α
  | none => some usual
  | some v => read v

/-- Read a word: a text, or the only key of a table with nothing below it. -/
def readWord? : Toml.Value → Option String
  | .text s => some s
  | .table [(word, .table [])] => some word
  | .table [(word, .array [])] => some word
  | _ => none

/-- Read a consistency level. -/
def readLevel? (v : Toml.Value) : Option Consistency := (readWord? v).bind Consistency.ofLabel?

/-- The greatest number of seconds that can be written. -/
def maxSeconds : Nat := 4294967295

/-- Read an unsigned 32-bit integer. -/
def readSeconds? (v : Toml.Value) : Option Nat :=
  match v.integer? with
  | some (.ofNat seconds) => if seconds ≤ maxSeconds then some seconds else none
  | _ => none

/-- Read the value of a prefix column. -/
def readPrefixValue? : Toml.Value → Option Value
  | .text s => some (.text s)
  | .boolean b => some (.boolean b)
  | _ => none

/-- Read a prefix column. -/
def readPrefixEntry? (v : Toml.Value) : Option (String × Value) :=
  match slots? ["column", "value"] v with
  | some [some column, some value] => do
    let column ← column.text?
    let value ← readPrefixValue? value
    return (column, value)
  | _ => none

/-- Read the prefix columns. -/
def readPrefix? (v : Toml.Value) : Option (List (String × Value)) :=
  v.array?.bind fun items => items.mapM readPrefixEntry?

/-! ### Reading the parts -/

/-- The fields of the repository part, in order. -/
def Table.fieldNames : List String :=
  ["table", "key_column", "exchange_id_column", "payload_column", "ttl_seconds",
    "read_consistency", "write_consistency", "fixed_prefix"]

/-- Read the repository part. -/
def Table.read? (v : Toml.Value) : Option Table :=
  match slots? Table.fieldNames v with
  | some [some table, keyColumn, exchangeIdColumn, payloadColumn, ttl, read, write, columns] => do
    let table ← table.text?
    let keyColumn ← readOr defaultKeyColumn.text Toml.Value.text? keyColumn
    let exchangeIdColumn ←
      readOr defaultExchangeIdColumn.text Toml.Value.text? exchangeIdColumn
    let payloadColumn ← readOr defaultPayloadColumn.text Toml.Value.text? payloadColumn
    let ttl ← readOr none (fun v => (readSeconds? v).map some) ttl
    let read ← readOr default readLevel? read
    let write ← readOr default readLevel? write
    let columns ← readOr [] readPrefix? columns
    return ⟨table, keyColumn, exchangeIdColumn, payloadColumn, ttl, read, write, columns⟩
  | _ => none

/-- The name under which a moment has its text when it is read as a table. -/
def momentEntry : String := "$__toml_private_datetime"

/-- Read a table of options; a moment is a table of one entry. -/
def readOptions? : Toml.Value → Option Entries
  | .table entries => some entries
  | .datetime literal => some [(momentEntry, .text literal)]
  | _ => none

/-- Read the session part. -/
def Session.read? (v : Toml.Value) : Option Session :=
  match slots? ["backend", "options"] v with
  | some [backend, options] => do
    let backend ← readOr defaultBackend Toml.Value.text? backend
    let options ← readOr [] readOptions? options
    return ⟨backend, options⟩
  | _ => none

/-- Read the audit part. -/
def AuditSink.read? (v : Toml.Value) : Option AuditSink :=
  match slots? ["sink", "path"] v with
  | some [sink, path] => do
    let sink ← readOr .none (fun v => (readWord? v).bind Audit.SinkKind.ofLabel?) sink
    let path ← readOr none (fun v => v.text?.map some) path
    return ⟨sink, path⟩
  | _ => none

/-- Read a configuration from the entries of a document. -/
def ofEntries? (entries : Entries) : Option Config :=
  match slots? ["repository", "session", "audit"] (.table entries) with
  | some [some repository, session, audit] => do
    let repository ← Table.read? repository
    let session ← readOr {} Session.read? session
    let audit ← readOr {} AuditSink.read? audit
    return ⟨repository, session, audit⟩
  | _ => none

/-- Read the text of a configuration. -/
def parse? (s : String) : Option Config := (Toml.parse? s).bind ofEntries?

end Config

end GroupStore
