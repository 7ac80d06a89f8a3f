import GroupStore.Sqlite.Cell
import GroupStore.Layout

/-!
# SQL statements of the store

The few shapes of SQL that a session uses, as data, and their text.  Parameters are numbered from
one in the order in which they stand: the columns that are written or compared, and last the
clock reading where a statement looks at live rows only.

* `Sql` and `Sql.text` — statements with parameters;
* `Definition` and its text — the creation of a table, with the hidden expiry column.
-/

namespace GroupStore.Sqlite

/-- The hidden column that says when a row expires. -/
def expiryColumn : String := "__expires_at_ms"

/-- A name in quotes. -/
def quote (name : String) : String := "\"" ++ name ++ "\""

/-- Names in quotes, separated. -/
def quoteAll (names : List String) : String := ", ".intercalate (names.map quote)

/-- The marker of a parameter. -/
def marker (index : Nat) : String := "?" ++ toString index

/-! ### Statements -/

/-- Which rows a statement works on. -/
structure Guard where
  /-- Columns compared for equality with the first parameters, in order. -/
  equals : List String
  /-- Whether only rows that live at the clock reading in the next parameter count. -/
  live : Bool
deriving DecidableEq

/-- A statement with parameters. -/
inductive Sql where
  /-- Write a row, one parameter per column, replacing the row of the same key. -/
  | upsert (table : String) (columns : List String)
  | select (table : String) (columns : List String) (rows : Guard)
  | delete (table : String) (rows : Guard)
deriving DecidableEq

/-- The number of parameters of a guard. -/
def Guard.parameters (g : Guard) : Nat := g.equals.length + if g.live then 1 else 0

/-- The number of parameters of a statement. -/
def Sql.parameters : Sql → Nat
  | upsert _ columns => columns.length
  | select _ _ rows => rows.parameters
  | delete _ rows => rows.parameters

/-- Comparisons of columns with parameters numbered from `first` on. -/
def equalityTexts : Nat → List String → List String
  | _, [] => []
  | first, column :: rest =>
    (quote column ++ " = " ++ marker first) :: equalityTexts (first + 1) rest

/-- The condition that a row lives at the reading in a parameter. -/
def liveText (index : Nat) : String :=
  "(" ++ quote expiryColumn ++ " IS NULL OR " ++ quote expiryColumn ++ " > " ++ marker index ++ ")"

/-- The conditions of a guard. -/
def Guard.texts (g : Guard) : List String :=
  equalityTexts 1 g.equals ++ if g.live then [liveText (g.equals.length + 1)] else []

/-- The text of a guard. -/
def Guard.text (g : Guard) : String := " AND ".intercalate g.texts

/-- Markers of parameters numbered from `first` on, one per column. -/
def markers : Nat → List String → List String
  | _, [] => []
  | first, _ :: rest => marker first :: markers (first + 1) rest

/-- The text of a statement. -/
def Sql.text : Sql → String
  | upsert table columns =>
    "INSERT OR REPLACE INTO " ++ quote table ++ " (" ++ quoteAll columns ++ ") VALUES ("
      ++ ", ".intercalate (markers 1 columns) ++ ")"
  | select table columns rows =>
    "SELECT " ++ quoteAll columns ++ " FROM " ++ quote table ++ " WHERE " ++ rows.text
  | delete table rows => "DELETE FROM " ++ quote table ++ " WHERE " ++ rows.text

/-! ### Table definitions -/

/-- A column of a table definition. -/
structure Column where
  name : String
  affinity : Affinity
  /-- Whether a row must have a value here. -/
  required : Bool
deriving DecidableEq

/-- The definition of a table. -/
structure Definition where
  name : String
  columns : List Column
  /-- The primary key. -/
  key : List String
deriving DecidableEq

/-- The table of a layout: its columns, all required, and the hidden one. -/
def Definition.ofLayout (l : Layout) : Definition where
  name := l.table.name.text
  columns := l.columns.map (fun spec => ⟨spec.name.text, Affinity.ofKind spec.kind, true⟩)
    ++ [⟨expiryColumn, .integer, false⟩]
  key := l.primaryKey.map fun spec => spec.name.text

/-- A column as it is declared. -/
def Column.text (c : Column) : String :=
  quote c.name ++ " " ++ c.affinity.label ++ if c.required then " NOT NULL" else ""

/-- The part of a definition after its verb. -/
def Definition.body (d : Definition) : String :=
  quote d.name ++ " (" ++ ", ".intercalate (d.columns.map Column.text) ++ ", PRIMARY KEY ("
    ++ quoteAll d.key ++ "))"

/-- The statement that creates a table unless there is one of its name. -/
def Definition.createText (d : Definition) : String :=
  "CREATE TABLE IF NOT EXISTS " ++ d.body ++ ";"

/-- The text of a definition as the database keeps it. -/
def Definition.schemaText (d : Definition) : String := "CREATE TABLE " ++ d.body

end GroupStore.Sqlite
