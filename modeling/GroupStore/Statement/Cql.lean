import GroupStore.Statement

/-!
# Statement text

The query text of a template with one question mark per bound column.  Names are written bare:
an identifier holds no separator, quote or blank.
-/

namespace GroupStore.Template

/-- Names with a separator between each two. -/
def joinNames (separator : String) (names : List Identifier) : String :=
  separator.intercalate (names.map Identifier.text)

/-- Each filter column with its marker. -/
def whereText (t : Template) : String :=
  if t.filter.isEmpty then ""
  else " WHERE " ++ " AND ".intercalate (t.filter.map fun column => column.text ++ "=?")

/-- The compared column with its marker. -/
def conditionText (t : Template) : String :=
  match t.condition with
  | none => ""
  | some column => " IF " ++ column.text ++ "=?"

/-- The time-to-live clause of an insert. -/
def ttlText (t : Template) : String :=
  match t.ttlSeconds with
  | none => ""
  | some seconds => " USING TTL " ++ toString seconds

/-- The whole statement. -/
def cql (t : Template) : String :=
  match t.kind with
  | .insert =>
    "INSERT INTO " ++ t.layout.table.text ++ "(" ++ joinNames "," t.projection ++ ") VALUES ("
      ++ ",".intercalate (t.projection.map fun _ => "?") ++ ")" ++ t.ttlText
  | .selectByKey | .selectKeyAndId =>
    "SELECT " ++ joinNames "," t.projection ++ " FROM " ++ t.layout.table.text ++ t.whereText
      ++ t.conditionText
  | .deleteByKey | .conditionalDelete =>
    "DELETE FROM " ++ t.layout.table.text ++ t.whereText ++ t.conditionText

end GroupStore.Template
