import GroupStore.Settings.Draft
import GroupStore.Statement.Repertoire

/-!
# Drafts of single statements

A statement is described by settings, the kind of statement to derive from them, and what to
change in the derived template.  Nothing keeps the changed template sensible: sessions have to
cope with any.
-/

namespace GroupStore

/-- Changes to a template; what is left out stays as derived. -/
structure Template.Change where
  /-- Other projected columns. -/
  projection : Option (List String) := none
  /-- Other filter columns. -/
  filter : Option (List String) := none
  /-- Another condition column, or none at all. -/
  condition : Option (Option String) := none
  /-- Another time-to-live. -/
  ttlSeconds : Option Nat := none
  /-- Another level. -/
  consistency : Option Consistency := none
deriving DecidableEq

namespace Template

/-- Check some column names, first to last. -/
def Change.columns : List String → Except SettingsError (List Identifier)
  | [] => .ok []
  | text :: rest => do
    let name ← Settings.Draft.column text
    let others ← columns rest
    return name :: others

/-- Change a template, or report the first name that is refused. -/
def amend (t : Template) (c : Change) : Except SettingsError Template := do
  let projection ← match c.projection with
    | none => .ok t.projection
    | some names => Change.columns names
  let filter ← match c.filter with
    | none => .ok t.filter
    | some names => Change.columns names
  let condition ← match c.condition with
    | none => .ok t.condition
    | some none => .ok none
    | some (some name) => (Settings.Draft.column name).map some
  return { t with
    projection, filter, condition
    ttlSeconds := c.ttlSeconds.or t.ttlSeconds
    consistency := c.consistency.getD t.consistency }

/-- A statement as it is written down. -/
structure Draft where
  /-- The settings it is derived from. -/
  settings : Settings.Draft
  /-- Its kind. -/
  kind : StatementKind
  /-- What differs from the derived template. -/
  change : Change := {}
deriving DecidableEq

/-- The template of a draft. -/
def Draft.template (d : Draft) : Except SettingsError Template := do
  let settings ← d.settings.settings
  let schema ← Schema.ofSettings settings
  (schema.template d.kind).amend d.change

end Template

end GroupStore
