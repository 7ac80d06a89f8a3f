import GroupStore.Json
import GroupStore.Sqlite.Database

/-!
# Images of databases

An image is the JSON text of a whole database: its tables in the order of their creation, each
with its definition and its rows, oldest first.  Bytes are written as hexadecimal digits, and
floating point numbers as fractions.

* `Database.image` — write a database;
* `Database.ofImage?` — read one back.
-/

namespace GroupStore.Sqlite

/-! ### Writing -/

/-- Bytes as hexadecimal digits, two for each. -/
def hexText (bytes : ByteArray) : String :=
  String.ofList (bytes.toList.flatMap fun b =>
    [Json.hexDigit (b.toNat / 16), Json.hexDigit (b.toNat % 16)])

/-- A cell as a JSON value. -/
def Cell.toJson : Cell → Json
  | null => .null
  | integer value => .int value
  | real value => .object [("real", .array [.int value.num, .int value.den])]
  | infinite negative => .object [("infinite", .bool negative)]
  | text s => .string s
  | blob bytes => .object [("blob", .string (hexText bytes))]

/-- A column as a JSON value. -/
def Column.toJson (c : Column) : Json :=
  .array [.string c.name, .string c.affinity.label, .bool c.required]

/-- A row as a JSON value. -/
def Record.toJson (row : Record) : Json :=
  .array [.int row.number, .array (row.cells.map Cell.toJson)]

/-- A table as a JSON value. -/
def Relation.toJson (r : Relation) : Json :=
  .object [("columns", .array (r.definition.columns.map Column.toJson)),
    ("key", .array (r.definition.key.map .string)), ("name", .string r.definition.name),
    ("rows", .array (r.rows.map Record.toJson))]

/-- The image of a database. -/
def Database.image (db : Database) : String :=
  (Json.object [("tables", .array (db.relations.map Relation.toJson))]).text

/-! ### Reading -/

/-- The value of a hexadecimal digit in lower case. -/
def hexValue? (c : Char) : Option Nat :=
  if c.isDigit then some (c.toNat - '0'.toNat)
  else if 'a' ≤ c ∧ c ≤ 'f' then some (c.toNat - 'a'.toNat + 10)
  else none

/-- The bytes of hexadecimal digits. -/
def hexBytes? : List Char → Option (List UInt8)
  | [] => some []
  | high :: low :: rest => do
    let high ← hexValue? high
    let low ← hexValue? low
    let others ← hexBytes? rest
    return (high * 16 + low).toUInt8 :: others
  | [_] => none

/-- Read a text. -/
def readText? : Json → Option String
  | .string s => some s
  | _ => none

/-- Read a list. -/
def readList? (read : Json → Option α) : Json → Option (List α)
  | .array items => items.mapM read
  | _ => none

/-- Read a cell. -/
def Cell.ofJson? : Json → Option Cell
  | .null => some .null
  | .number (.int value) => some (.integer value)
  | .string s => some (.text s)
  | .object [("real", .array [.number (.int num), .number (.int den)])] =>
    some (.real (mkRat num den.toNat))
  | .object [("infinite", .bool negative)] => some (.infinite negative)
  | .object [("blob", .string digits)] =>
    (hexBytes? digits.toList).map fun bytes => .blob bytes.toByteArray
  | _ => none

/-- Read a row. -/
def Record.ofJson? : Json → Option Record
  | .array [.number (.int number), cells] =>
    (readList? Cell.ofJson? cells).map fun cells => ⟨number, cells⟩
  | _ => none

/-- The affinity that a word names. -/
def Affinity.ofLabel? (word : String) : Option Affinity :=
  [text, blob, integer].find? (·.label == word)

/-- Read a column. -/
def Column.ofJson? : Json → Option Column
  | .array [.string name, .string affinity, .bool required] =>
    (Affinity.ofLabel? affinity).map fun affinity => ⟨name, affinity, required⟩
  | _ => none

/-- Read a table. -/
def Relation.ofJson? : Json → Option Relation
  | .object [("columns", columns), ("key", key), ("name", .string name), ("rows", rows)] => do
    let columns ← readList? Column.ofJson? columns
    let key ← readList? readText? key
    let rows ← readList? Record.ofJson? rows
    return ⟨⟨name, columns, key⟩, rows⟩
  | _ => none

/-- Read the image of a database. -/
def Database.ofImage? (content : ByteArray) : Option Database :=
  match Json.ofBytes? content.toList with
  | some (.object [("tables", tables)]) => (readList? Relation.ofJson? tables).map Database.mk
  | _ => none

end GroupStore.Sqlite
