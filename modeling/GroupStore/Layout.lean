import GroupStore.Identifier
import GroupStore.Value

/-!
# Table layouts

A layout names a table and its typed columns: first those of the primary key, in key order, then
the others.  Column lookup takes the first column of a name.
-/

namespace GroupStore

/-- A named, typed column. -/
structure ColumnSpec where
  /-- The column's name. -/
  name : Identifier
  /-- The type of its values. -/
  kind : ColumnKind
deriving DecidableEq

/-- The physical shape of a table. -/
structure Layout where
  /-- The table. -/
  table : TableName
  /-- Primary-key columns in key order. -/
  primaryKey : List ColumnSpec
  /-- All other columns. -/
  regular : List ColumnSpec
deriving DecidableEq

namespace Layout

/-- Every column, primary key first. -/
def columns (l : Layout) : List ColumnSpec := l.primaryKey ++ l.regular

/-- The names of the primary-key columns. -/
def keyNames (l : Layout) : List Identifier := l.primaryKey.map ColumnSpec.name

/-- The first column of a name. -/
def column? (l : Layout) (name : Identifier) : Option ColumnSpec :=
  l.columns.find? fun spec => spec.name = name

end Layout

end GroupStore
