import GroupStore.Config.Error
import GroupStore.Settings.Draft

/-!
# Checking a configuration: settings, paths and the audit sink

* `Config.settings` — the settings that a configuration describes, validated;
* `pathFault?` — the check of a path in a configuration, which disregards blanks at its ends;
* `AuditSink.check` and `AuditSink.open` — the sink and the path go together.
-/

namespace GroupStore.Config

/-! ### Settings -/

/-- Name the field that a refusal of settings comes from. -/
def inField (field : String) (r : Except SettingsError α) : Except ConfigError α :=
  r.mapError fun cause => .invalid (.settings field cause)

/-- Check the names of prefix columns, first to last. -/
def prefixEntries : List (String × Value) → Except ConfigError (List PrefixColumn)
  | [] => .ok []
  | (name, value) :: rest => do
    let column ← inField "repository.fixed_prefix.column" (Settings.Draft.column name)
    let others ← prefixEntries rest
    return ⟨column, value⟩ :: others

/-- The settings of the repository part: the number of prefix columns is looked at first, then
the names in their order, and last how they go together. -/
def Table.settings (t : Table) : Except ConfigError Settings := do
  if t.fixedPrefix.length > maxPrefixColumns then throw (.invalid .tooManyPrefixColumns)
  let table ← inField "repository.table" ((TableName.ofText t.table).mapError .name)
  let entries ← prefixEntries t.fixedPrefix
  let fixedPrefix ← inField "repository.fixed_prefix" (FixedPrefix.ofEntries entries)
  let keyColumn ← inField "repository.key_column" (Settings.Draft.column t.keyColumn)
  let exchangeIdColumn ←
    inField "repository.exchange_id_column" (Settings.Draft.column t.exchangeIdColumn)
  let payloadColumn ← inField "repository.payload_column" (Settings.Draft.column t.payloadColumn)
  let settings : Settings := ⟨table, fixedPrefix, keyColumn, exchangeIdColumn, payloadColumn,
    t.ttlSeconds, t.readConsistency, t.writeConsistency⟩
  inField "repository" settings.check
  return settings

/-- The settings that a configuration describes. -/
def settings (c : Config) : Except ConfigError Settings := c.repository.settings

/-! ### Paths -/

/-- The first fault of a path, blanks at its ends disregarded. -/
def pathFault? (path : String) : Option PathFault :=
  let text := trimmed path
  if text = "" then some .blank
  else
    match Path.sizeFault? text with
    | some .path => some .tooLong
    | some .component => some .componentTooLong
    | none => none

/-- Check a path in a field. -/
def checkPath (field path : String) : Except ConfigError Unit :=
  match pathFault? path with
  | some fault => .error (.invalid (.path field fault))
  | none => .ok ()

/-! ### The audit sink -/

/-- The file sink needs a path, and no other sink has one. -/
def AuditSink.check (a : AuditSink) : Except ConfigError Unit :=
  match a.sink, a.path with
  | .file, some path => checkPath "audit.path" path
  | .file, none => .error (.invalid .auditPathMissing)
  | _, some _ => .error (.invalid .auditPathUnused)
  | _, none => .ok ()

/-- Open the sink; the file of the file sink is created unless it is there. -/
def AuditSink.open (a : AuditSink) (files : Files) : Except ConfigError Audit.Sink × Files :=
  match a.check with
  | .error e => (.error e, files)
  | .ok () =>
    match a.sink, a.path with
    | .file, some path =>
      match files.openLog? path with
      | some (place, files') => (.ok (.file place), files')
      | none => (.error .unreadable, files)
    | .stderr, _ => (.ok .errorOutput, files)
    | _, _ => (.ok .none, files)

end GroupStore.Config
