import GroupStore.Settings

/-!
# Drafts: settings as they are written down

A draft holds names as plain text, where settings hold checked identifiers.  Names are checked in
the order in which a draft lists them: the table, each prefix column, the prefix as a whole, then
the key, exchange id and payload columns.
-/

namespace GroupStore

/-- Settings whose names have not been looked at. -/
structure Settings.Draft where
  /-- The table. -/
  table : String
  /-- Prefix columns with their values, in key order. -/
  fixedPrefix : List (String × Value) := []
  /-- The group key column, if it is not the usual one. -/
  keyColumn : Option String := none
  /-- The exchange id column, if it is not the usual one. -/
  exchangeIdColumn : Option String := none
  /-- The payload column, if it is not the usual one. -/
  payloadColumn : Option String := none
  /-- Seconds that an inserted row lives. -/
  ttlSeconds : Option Nat := none
  /-- Level of reads. -/
  readConsistency : Consistency := default
  /-- Level of writes. -/
  writeConsistency : Consistency := default
deriving DecidableEq

namespace Settings.Draft

/-- Check a column name. -/
def column (text : String) : Except SettingsError Identifier :=
  (Identifier.ofText .column text).mapError .name

/-- Check a column name that may be left out. -/
def columnOr (usual : Identifier) : Option String → Except SettingsError Identifier
  | none => .ok usual
  | some text => column text

/-- Check the names of prefix columns, first to last. -/
def prefixEntries : List (String × Value) → Except SettingsError (List PrefixColumn)
  | [] => .ok []
  | (name, value) :: rest => do
    let checked ← column name
    let others ← prefixEntries rest
    return ⟨checked, value⟩ :: others

/-- The settings of a draft, or the first name that is refused. -/
def settings (d : Draft) : Except SettingsError Settings := do
  let table ← (TableName.ofText d.table).mapError .name
  let entries ← prefixEntries d.fixedPrefix
  let fixedPrefix ← FixedPrefix.ofEntries entries
  let keyColumn ← columnOr defaultKeyColumn d.keyColumn
  let exchangeIdColumn ← columnOr defaultExchangeIdColumn d.exchangeIdColumn
  let payloadColumn ← columnOr defaultPayloadColumn d.payloadColumn
  return ⟨table, fixedPrefix, keyColumn, exchangeIdColumn, payloadColumn, d.ttlSeconds,
    d.readConsistency, d.writeConsistency⟩

end Settings.Draft

end GroupStore
