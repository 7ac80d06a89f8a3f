import GroupStore.Files
import GroupStore.Session
import GroupStore.Json.Record

/-!
# Configuration of database sessions

Where the database file is, how long a session waits for another one, and the two durability
modes.  `Config.check` looks at the path: its text first, then at what it names.

* `Config.ofText?` — the JSON form: a record in which only the path is required;
* `Config.check` — the validation before a database is opened.
-/

namespace GroupStore.Sqlite

/-- How changes are journaled. -/
inductive JournalMode where
  | wal
  | delete
deriving DecidableEq

/-- The word for a journal mode. -/
def JournalMode.label : JournalMode → String
  | wal => "wal"
  | delete => "delete"

/-- The journal mode that a word names. -/
def JournalMode.ofLabel? (word : String) : Option JournalMode :=
  [wal, delete].find? (·.label == word)

/-- When changes are forced to disk. -/
inductive SyncMode where
  | full
  | normal
deriving DecidableEq

/-- The word for a sync mode. -/
def SyncMode.label : SyncMode → String
  | full => "full"
  | normal => "normal"

/-- The sync mode that a word names. -/
def SyncMode.ofLabel? (word : String) : Option SyncMode := [full, normal].find? (·.label == word)

/-- The waiting time unless another is set. -/
def defaultBusyTimeout : Nat := 5000

/-- The configuration of a session. -/
structure Config where
  /-- The database file. -/
  path : String
  /-- How long to wait for another session, in milliseconds. -/
  busyTimeout : Nat := defaultBusyTimeout
  /-- How changes are journaled. -/
  journal : JournalMode := .wal
  /-- When changes are forced to disk. -/
  sync : SyncMode := .full
deriving DecidableEq

/-! ### Validation -/

/-- Why a path is refused. -/
inductive PathFault where
  | empty
  | tooLong
  | componentTooLong
  | directory
deriving DecidableEq

/-- The wording of a refused path. -/
def PathFault.message : PathFault → String
  | empty => "store path must be non-empty"
  | tooLong => "store path exceeds length limit"
  | componentTooLong => "store path contains an overlong component"
  | directory => "store path must be a file, not a directory"

/-- Why no session is opened or purged. -/
inductive OpenError where
  /-- The directories of the database file cannot be created. -/
  | directories
  /-- The database engine refuses. -/
  | engine (text : String)
  | path (fault : PathFault)
deriving DecidableEq

/-- The wording of a refused opening. -/
def OpenError.message : OpenError → String
  | directories => "sqlite session io error: cannot create the directory of the store"
  | engine text => "sqlite session db error: " ++ text
  | path fault => "sqlite session invalid config: " ++ fault.message

/-- A refused opening as a session reports it. -/
def OpenError.toSessionError : OpenError → SessionError
  | engine text => .execution text
  | e => .connection e.message

/-- The first fault of a path in a file tree. -/
def pathFault? (files : Files) (path : String) : Option PathFault :=
  if path = "" then some .empty
  else
    match Path.sizeFault? path with
    | some .path => some .tooLong
    | some .component => some .componentTooLong
    | none => if files.isDirectory path then some .directory else none

/-- Validate a configuration. -/
def Config.check (files : Files) (c : Config) : Except PathFault Unit :=
  match pathFault? files c.path with
  | some fault => .error fault
  | none => .ok ()

/-! ### The JSON form -/

namespace Config

open Json (Tree)

/-- The fields, in order. -/
def fieldNames : List String := ["path", "busy_timeout_ms", "journal_mode", "sync_mode"]

/-- Read a string. -/
def readString? : Tree → Option String
  | .text raw => Json.readText? raw
  | _ => none

/-- Read an unsigned 64-bit integer. -/
def readWord? : Tree → Option Nat
  | .number n =>
    match n.int? with
    | some (.ofNat value) => some value
    | _ => none
  | _ => none

/-- Read a word that stands alone or is the only field of an object, with nothing in it. -/
def readWordLabel? : Tree → Option String
  | .text raw => Json.readText? raw
  | .object [(raw, .null)] => Json.readText? raw
  | _ => none

/-- Read a field that may be left out. -/
def readOr (usual : α) (read : Tree → Option α) : Option Tree → Option α
  | none => some usual
  | some t => read t

/-- Read a configuration. -/
def ofTree? (t : Tree) : Option Config :=
  if Json.Record.onlyKnown fieldNames t then
    match Json.Record.slots? fieldNames t with
    | some [some path, busyTimeout, journal, sync] => do
      let path ← readString? path
      let busyTimeout ← readOr defaultBusyTimeout readWord? busyTimeout
      let journal ← readOr .wal (fun t => (readWordLabel? t).bind JournalMode.ofLabel?) journal
      let sync ← readOr .full (fun t => (readWordLabel? t).bind SyncMode.ofLabel?) sync
      return ⟨path, busyTimeout, journal, sync⟩
    | _ => none
  else none

/-- Read the JSON text of a configuration. -/
def ofText? (s : String) : Option Config := (Tree.ofBytes? s.toUTF8.toList).bind ofTree?

end Config

end GroupStore.Sqlite
