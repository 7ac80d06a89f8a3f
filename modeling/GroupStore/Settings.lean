import GroupStore.Identifier
import GroupStore.Value
import GroupStore.Consistency

/-!
# Settings of one repository

Where a repository keeps its rows: the table, the fixed prefix of the primary key (column and
constant value pairs), the names of the three columns that every row has, the time-to-live of
inserted rows and the consistency levels of reads and writes.

`Settings.check` is the cross-field validation: no column serves twice and the time-to-live, if
there is one, is positive and at most twenty years.
-/

namespace GroupStore

/-! ### The fixed prefix -/

/-- One column of the fixed prefix with the value that all rows of the repository share. -/
structure PrefixColumn where
  /-- The column. -/
  column : Identifier
  /-- Its constant value. -/
  value : Value
deriving DecidableEq

/-- Why settings are refused. -/
inductive SettingsError where
  | name (cause : NameError)
  | repeatedInPrefix (column : Identifier)
  | usedTwice (column : Identifier)
  | ttlOutOfRange (seconds : Nat)
deriving DecidableEq

/-- The longest time-to-live, twenty years in seconds. -/
def maxTtlSeconds : Nat := 630720000

/-- The wording of refused settings. -/
def SettingsError.message : SettingsError → String
  | .name cause => "invalid identifier: " ++ cause.message
  | .repeatedInPrefix column => "duplicate column: fixed prefix column repeated: " ++ column.text
  | .usedTwice column => "duplicate column: column used more than once: " ++ column.text
  | .ttlOutOfRange seconds =>
    "invalid ttl: ttl_seconds must be in 1..=" ++ toString maxTtlSeconds ++ ", got "
      ++ toString seconds

/-- The first element of a list that is already among those before it or among `seen`. -/
def firstRepeat? [DecidableEq α] (seen : List α) : List α → Option α
  | [] => none
  | x :: rest => if x ∈ seen then some x else firstRepeat? (x :: seen) rest

/-- A fixed prefix: columns with constant values, no column twice. -/
structure FixedPrefix where
  /-- The pairs in key order. -/
  entries : List PrefixColumn
  /-- No column occurs twice. -/
  distinct : firstRepeat? [] (entries.map PrefixColumn.column) = none
deriving DecidableEq

namespace FixedPrefix

/-- Check that no column occurs twice. -/
def ofEntries (entries : List PrefixColumn) : Except SettingsError FixedPrefix :=
  match h : firstRepeat? [] (entries.map PrefixColumn.column) with
  | none => .ok ⟨entries, h⟩
  | some column => .error (.repeatedInPrefix column)

/-- No prefix: the group key alone is the primary key. -/
def empty : FixedPrefix := ⟨[], rfl⟩

/-- The columns in key order. -/
def columns (p : FixedPrefix) : List Identifier := p.entries.map PrefixColumn.column

/-- The values in key order. -/
def values (p : FixedPrefix) : List Value := p.entries.map PrefixColumn.value

end FixedPrefix

/-! ### Settings -/

/-- The column that holds the group key, unless another is named. -/
def defaultKeyColumn : Identifier := ⟨"aggregation_key", by decide +kernel, by decide +kernel⟩

/-- The column that holds the exchange id, unless another is named. -/
def defaultExchangeIdColumn : Identifier := ⟨"exchange_id", by decide +kernel, by decide +kernel⟩

/-- The column that holds the payload, unless another is named. -/
def defaultPayloadColumn : Identifier := ⟨"exchange", by decide +kernel, by decide +kernel⟩

/-- Where and how one repository stores its rows. -/
structure Settings where
  /-- The table. -/
  table : TableName
  /-- The fixed part of the primary key. -/
  fixedPrefix : FixedPrefix := .empty
  /-- The group key column, last in the primary key. -/
  keyColumn : Identifier := defaultKeyColumn
  /-- The exchange id column. -/
  exchangeIdColumn : Identifier := defaultExchangeIdColumn
  /-- The payload column. -/
  payloadColumn : Identifier := defaultPayloadColumn
  /-- Seconds that an inserted row lives. -/
  ttlSeconds : Option Nat := none
  /-- Level of point reads and scans. -/
  readConsistency : Consistency := default
  /-- Level of inserts and deletes. -/
  writeConsistency : Consistency := default
deriving DecidableEq

namespace Settings

/-- The three columns that every row has besides the prefix. -/
def ownColumns (s : Settings) : List Identifier :=
  [s.keyColumn, s.exchangeIdColumn, s.payloadColumn]

/-- Seconds outside `1..=maxTtlSeconds`, if they are set so. -/
def badTtl? (s : Settings) : Option Nat :=
  s.ttlSeconds.filter fun seconds => seconds = 0 || seconds > maxTtlSeconds

/-- Cross-field validation; a column used twice is reported before a bad time-to-live. -/
def check (s : Settings) : Except SettingsError Unit :=
  match firstRepeat? s.fixedPrefix.columns s.ownColumns with
  | some column => .error (.usedTwice column)
  | none =>
    match s.badTtl? with
    | some seconds => .error (.ttlOutOfRange seconds)
    | none => .ok ()

end Settings

end GroupStore
