import GroupStore.Proofs.Sqlite

/-!
# The SQL of a schema

Every template of a schema is translated, and its SQL assigns to columns of the schema's table only.

* `Schema.sql` — the SQL of each statement;
* `Schema.translate_template` — a template is translated to it;
* `Schema.unknown?_sql` — it assigns to columns of the table only;
* `Schema.Narrow` — its statements have no more conditions than can be read.
-/

namespace GroupStore

open Sqlite

namespace Schema

/-- The columns compared by a conditional delete. -/
def conditionSpecs (s : Schema) : List ColumnSpec :=
  s.layout.primaryKey ++ [⟨s.exchangeIdColumn, .text⟩]

/-- The SQL of the statement of a kind. -/
def sql (s : Schema) : StatementKind → Sql
  | .insert =>
    .upsert s.settings.table.name.text (s.columns.map Identifier.text ++ [expiryColumn])
  | .selectByKey =>
    .select s.settings.table.name.text (s.columns.map Identifier.text)
      ⟨columnNames s.layout.primaryKey, true⟩
  | .deleteByKey =>
    .delete s.settings.table.name.text ⟨columnNames s.layout.primaryKey, false⟩
  | .selectKeyAndId =>
    .select s.settings.table.name.text [s.keyColumn.text, s.exchangeIdColumn.text]
      ⟨columnNames s.prefixSpecs, true⟩
  | .conditionalDelete =>
    .delete s.settings.table.name.text ⟨columnNames s.conditionSpecs, true⟩

variable (s : Schema)

theorem columns_texts : s.columns.map Identifier.text = columnNames s.layout.columns := by
  rw [← s.layout_columns_names, List.map_map]
  rfl

theorem primaryKey_texts : s.primaryKey.map Identifier.text = columnNames s.layout.primaryKey := by
  rw [← s.layout_keyNames, Layout.keyNames, List.map_map]
  rfl

theorem prefixColumns_texts :
    s.prefixColumns.map Identifier.text = columnNames s.prefixSpecs := by
  rw [← s.prefixSpecs_names, List.map_map]
  rfl

theorem translate_template (kind : StatementKind) :
    Sqlite.translate (s.template kind) = .ok (s.sql kind) := by
  have key := s.primaryKey_texts
  cases kind with
  | insert => rfl
  | selectByKey => simp only [Sqlite.translate, template, key, sql]; rfl
  | deleteByKey =>
    have compared : columnNames s.layout.primaryKey ≠ [] := by
      simp [columnNames, layout_primaryKey]
    simp only [Sqlite.translate, template, key, if_neg compared, sql]
    rfl
  | selectKeyAndId => simp only [Sqlite.translate, template, s.prefixColumns_texts, sql]; rfl
  | conditionalDelete =>
    simp only [Sqlite.translate, template, key, sql, conditionSpecs, columnNames, List.map_append]
    rfl

theorem sql_table (kind : StatementKind) :
    (s.sql kind).table = s.settings.table.name.text := by
  cases kind <;> rfl

/-- Every name to which a statement assigns is a column of the table. -/
theorem unknown?_sql (kind : StatementKind) : s.definition.unknown? (s.sql kind) = none := by
  rw [Definition.unknown?, List.find?_eq_none]
  intro name member
  cases kind with
  | insert =>
    have named : name ∈ s.columns.map Identifier.text ++ [expiryColumn] := member
    rw [insert_names] at named
    obtain ⟨column, found, rfl⟩ := List.mem_map.mp named
    simp [Definition.resolves, hasColumn_of_mem found]
  | selectByKey => cases member
  | deleteByKey => cases member
  | selectKeyAndId => cases member
  | conditionalDelete => cases member

/-- A schema whose statements have no more conditions than can be read: its longest guard compares
the prefix, the key, the exchange id and the moment of expiry. -/
def Narrow : Prop := s.prefixSpecs.length + 3 ≤ maxConditions

instance : Decidable s.Narrow := inferInstanceAs (Decidable (_ ≤ _))

theorem isReadable_sql (narrow : s.Narrow) (kind : StatementKind) :
    (s.sql kind).isReadable = true := by
  have key : s.layout.primaryKey.length = s.prefixSpecs.length + 1 := by
    rw [s.layout_primaryKey, List.length_append, List.length_singleton]
  have names : s.primaryKey.length = s.prefixSpecs.length + 1 := by
    rw [← s.layout_keyNames, Layout.keyNames, List.length_map, key]
  unfold Narrow maxConditions at narrow
  cases kind <;>
    simp [sql, Sql.isReadable, Guard.parameters, columnNames, conditionSpecs, key, names,
      columns, maxConditions, maxColumns, maxParameters] <;>
    omega

/-- The key of the table of a schema has a column: that of the aggregation key. -/
theorem key_ne_nil : s.definition.key ≠ [] := by
  simp [definition, Definition.ofLayout, s.layout_primaryKey]

/-- The table of a narrow schema can be created if the names of its columns differ beyond case. -/
theorem sound_definition (narrow : s.Narrow) (distinct : s.definition.Distinct) :
    s.definition.Sound where
  distinct := distinct
  few := by
    have columns : s.definition.columns.length = s.prefixSpecs.length + 4 := by
      simp [definition_columns, Layout.columns, layout, prefixSpecs]
    unfold Narrow maxConditions at narrow
    unfold maxColumns
    omega
  keyed := s.key_ne_nil
  declared := declared_ofLayout s.layout

end Schema

end GroupStore
