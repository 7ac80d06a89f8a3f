import GroupStore.Settings
import GroupStore.Layout

/-!
# Schemas: settings that passed validation

A schema fixes the one column order that statements, bindings and row lookups share: the prefix
columns, the group key, the exchange id, the payload.  The primary key is the prefix values
followed by the group key as text.

* `Schema.composeKey` and `Schema.decomposeKey` — the primary key of a group and back;
* `Schema.layout` — the table that the schema describes.
-/

namespace GroupStore

/-- Settings whose columns are distinct and whose time-to-live is in range. -/
structure Schema where
  /-- The settings. -/
  settings : Settings
  /-- They pass validation. -/
  checked : settings.check = .ok ()
deriving DecidableEq

namespace Schema

/-- Validate settings. -/
def ofSettings (s : Settings) : Except SettingsError Schema :=
  match h : s.check with
  | .ok () => .ok ⟨s, h⟩
  | .error e => .error e

/-! ### Columns -/

/-- Columns of the fixed prefix. -/
def prefixColumns (s : Schema) : List Identifier := s.settings.fixedPrefix.columns

/-- Values of the fixed prefix. -/
def prefixValues (s : Schema) : List Value := s.settings.fixedPrefix.values

/-- The group key column. -/
def keyColumn (s : Schema) : Identifier := s.settings.keyColumn

/-- The exchange id column. -/
def exchangeIdColumn (s : Schema) : Identifier := s.settings.exchangeIdColumn

/-- The payload column. -/
def payloadColumn (s : Schema) : Identifier := s.settings.payloadColumn

/-- The prefix columns, then the group key. -/
def primaryKey (s : Schema) : List Identifier := s.prefixColumns ++ [s.keyColumn]

/-- Every stored column in statement order. -/
def columns (s : Schema) : List Identifier :=
  s.primaryKey ++ [s.exchangeIdColumn, s.payloadColumn]

/-- The table that the schema's statements work on. -/
def layout (s : Schema) : Layout where
  table := s.settings.table
  primaryKey :=
    s.settings.fixedPrefix.entries.map (fun entry => ⟨entry.column, entry.value.kind⟩)
      ++ [⟨s.keyColumn, .text⟩]
  regular := [⟨s.exchangeIdColumn, .text⟩, ⟨s.payloadColumn, .blob⟩]

/-! ### Primary keys -/

/-- The full primary key of a group. -/
def composeKey (s : Schema) (key : String) : List Value := s.prefixValues ++ [.text key]

/-- The group of a full primary key; none if the key has another length, carries the prefix of
another repository or does not end in text. -/
def decomposeKey (s : Schema) (values : List Value) : Option String :=
  match values.getLast? with
  | none => none
  | some last => if values.dropLast = s.prefixValues then last.text? else none

end Schema

end GroupStore
