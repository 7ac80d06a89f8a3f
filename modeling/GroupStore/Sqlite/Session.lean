import GroupStore.Session
import GroupStore.Sqlite.Database

/-!
# Sessions over a database

A session translates templates into SQL, remembers under which layout it prepared each table, and
runs the statements on its database.  Rows carry their expiry in the hidden column; moments are
held at the greatest integer of a cell.

* `translate` — the SQL of a template;
* `prepare`, `execute`, `close`, `purge` — the session's calls, on a connection and a database.
-/

namespace GroupStore.Sqlite

/-- What a session remembers itself, besides its database. -/
structure Connection where
  /-- The layouts of the tables prepared so far. -/
  layouts : List Layout
  /-- Whether the session has been closed. -/
  closed : Bool
deriving DecidableEq

/-- A session just opened. -/
def Connection.fresh : Connection := ⟨[], false⟩

/-! ### Translating -/

/-- Why a template is refused. -/
inductive Refusal where
  | qualified (table : TableName)
  | reservedColumn
  | unfilteredDelete
  | noCondition
  | otherLayout (table : Identifier)
  | create (cause : CreateError)
  /-- The database has no place for something to which the statement assigns, or cannot read its
  text. -/
  | unknownName (kind : StatementKind)
deriving DecidableEq

/-- A refusal as the session reports it. -/
def Refusal.toSessionError : Refusal → SessionError
  | qualified table =>
    .unsupported ("sqlite tables cannot be keyspace-qualified: " ++ table.text)
  | reservedColumn => .unsupported ("column name " ++ expiryColumn ++ " is reserved")
  | unfilteredDelete => .unsupported "delete without a key filter"
  | noCondition => .unsupported "conditional delete without condition"
  | otherLayout table =>
    .prepare ("table " ++ table.text ++ " already prepared with a different layout")
  | create cause => .prepare cause.message
  | unknownName kind =>
    .prepare (kind.label ++ ": the table lacks a column of the statement")

/-- The SQL of a template.  A delete must compare something. -/
def translate (t : Template) : Except Refusal Sql :=
  let table := t.layout.table.name.text
  let projection := t.projection.map Identifier.text
  let filter := t.filter.map Identifier.text
  match t.kind with
  | .insert => .ok (.upsert table (projection ++ [expiryColumn]))
  | .selectByKey | .selectKeyAndId => .ok (.select table projection ⟨filter, true⟩)
  | .deleteByKey => if filter = [] then .error .unfilteredDelete else .ok
    (.delete table ⟨filter, false⟩)
  | .conditionalDelete =>
    match t.condition with
    | none => .error .noCondition
    | some column => .ok (.delete table ⟨filter ++ [column.text], true⟩)

/-- What a template must not ask of a database: a qualified table or the hidden column. -/
def forbidden? (t : Template) : Option Refusal :=
  if t.layout.table.keyspace.isSome then some (.qualified t.layout.table)
  else if t.layout.columns.any fun spec => spec.name.text == expiryColumn then some .reservedColumn
  else none

/-! ### Preparing -/

/-- The layout under which a table was prepared. -/
def Connection.layout? (c : Connection) (name : Identifier) : Option Layout :=
  c.layouts.find? fun l => l.table.name = name

/-- Remember a layout and create its table, unless the table was prepared before; then the layout
must be the same. -/
def Connection.register (c : Connection) (l : Layout) (db : Database) :
    Except Refusal (Connection × Database) :=
  match c.layout? l.table.name with
  | some known => if known = l then .ok (c, db) else .error (.otherLayout l.table.name)
  | none =>
    match db.create (Definition.ofLayout l) with
    | .ok db' => .ok ({ c with layouts := c.layouts ++ [l] }, db')
    | .error e => .error (.create e)

/-- Prepare a template.  The table is created and remembered before the statement itself is
looked at, and stays so when the statement is refused. -/
def prepare (t : Template) (c : Connection) (db : Database) :
    Except SessionError Prepared × Connection × Database :=
  match forbidden? t with
  | some refusal => (.error refusal.toSessionError, c, db)
  | none =>
    match translate t with
    | .error refusal => (.error refusal.toSessionError, c, db)
    | .ok sql =>
      if c.closed then (.error .closed, c, db)
      else
        match c.register t.layout db with
        | .error refusal => (.error refusal.toSessionError, c, db)
        | .ok (c', db') =>
          if db'.knows sql then (.ok ⟨t, sql.text⟩, c', db')
          else (.error (Refusal.unknownName t.kind).toSessionError, c', db')

/-! ### Executing -/

/-- A clock reading as a cell can hold it. -/
def reading (now : Nat) : Int := min (now : Int) maxInteger

/-- When a row written now expires. -/
def expiry (ttlSeconds : Option Nat) (now : Nat) : Cell :=
  match ttlSeconds with
  | none => .null
  | some seconds => .integer (min (reading now + seconds * 1000) maxInteger)

/-- The parameters that a session adds to the bound values. -/
def addedParameters (t : Template) (now : Nat) : List Cell :=
  match t.kind with
  | .insert => [expiry t.ttlSeconds now]
  | .deleteByKey => []
  | _ => [.integer (reading now)]

/-- All parameters of a bound statement. -/
def parameters (b : Bound) (now : Nat) : List Cell :=
  b.values.map Cell.ofValue ++ addedParameters b.template now

/-- Why an execution fails. -/
inductive Failure where
  | run (cause : RunError)
  /-- The text of a statement that was prepared elsewhere is no SQL from a word on. -/
  | notSql (word : String) (text : String) (offset : Nat)
  /-- Such a text has a name that stands for nothing, without quotes. -/
  | unknownName (name : String) (text : String) (offset : Nat)
  | unknownColumn (column : Identifier)
  | otherData (column : Identifier) (kind : ColumnKind)
deriving DecidableEq

/-- A failure as the session reports it. -/
def Failure.toSessionError : Failure → SessionError
  | run cause => .execution cause.message
  | notSql word text offset =>
    .execution ("near \"" ++ word ++ "\": syntax error in " ++ text ++ " at offset "
      ++ toString offset)
  | unknownName name text offset =>
    .execution ("no such column: " ++ name ++ " in " ++ text ++ " at offset " ++ toString offset)
  | unknownColumn column => .execution ("unknown column " ++ column.text)
  | otherData column kind =>
    .execution ("column " ++ column.text ++ " does not hold " ++ kind.label ++ " data")

/-- The cell of a projected column as a value of the layout's kind. -/
def readCell (l : Layout) (column : Identifier) (c : Cell) : Except Failure (String × Value) :=
  match l.column? column with
  | none => .error (.unknownColumn column)
  | some spec =>
    match c.toValue? spec.kind with
    | none => .error (.otherData column spec.kind)
    | some value => .ok (column.text, value)

/-- The cells of a projected row as values, in order. -/
def readCells (l : Layout) : List Identifier → Cells → Except Failure (List (String × Value))
  | column :: columns, c :: cells => do
    let cell ← readCell l column c
    let others ← readCells l columns cells
    return cell :: others
  | _, _ => .ok []

/-- All projected rows; the first cell of other data fails the statement. -/
def readRows (l : Layout) (projection : List Identifier) :
    List Cells → Except Failure (List Row)
  | [] => .ok []
  | cells :: rest => do
    let row ← readCells l projection cells
    let others ← readRows l projection rest
    return Row.ofCells row :: others

/-- What the answer of the database means for a statement. -/
def readAnswer (t : Template) (answer : Answer) : Except Failure ResultSet :=
  match t.kind with
  | .insert | .deleteByKey => .ok .empty
  | .conditionalDelete => .ok (.flag (0 < answer.changed))
  | .selectByKey | .selectKeyAndId =>
    (readRows t.layout t.projection answer.rows).map fun rows => ⟨rows⟩

/-- The failure of a text that is no SQL from the first word of its last clause on. -/
def notSql (word text clause : String) : Failure :=
  .notSql word text (text.utf8ByteSize - clause.utf8ByteSize + 1)

/-- The SQL in the statement text of a template.  Time to live and conditions have no place in
it. -/
def sqlOfText (t : Template) : Except Failure Sql :=
  let table := t.layout.table.text
  let projection := t.projection.map Identifier.text
  let rows : Guard := ⟨t.filter.map Identifier.text, false⟩
  if t.kind = .insert then
    if t.ttlSeconds.isSome then .error (notSql "USING" t.cql t.ttlText)
    else .ok (.upsert table projection)
  else if t.condition.isSome then .error (notSql "IF" t.cql t.conditionText)
  else if t.kind.isRead then .ok (.select table projection rows)
  else .ok (.delete table rows)

/-- The SQL that a prepared statement stands for.  One that was prepared elsewhere keeps its own
text. -/
def sqlOf (p : Prepared) : Except Failure Sql :=
  match translate p.template with
  | .ok sql => if sql.text = p.native then .ok sql else sqlOfText p.template
  | .error _ => sqlOfText p.template

/-- Names that follow one another in a text from an offset on, each with its own offset. -/
def withOffsets (first gap : Nat) : List Identifier → List (String × Nat)
  | [] => []
  | name :: rest =>
    (name.text, first) :: withOffsets (first + name.text.utf8ByteSize + gap) gap rest

/-- The names that the statement text of a template reads, with their offsets. -/
def readNames (t : Template) : List (String × Nat) :=
  let start := t.cql.utf8ByteSize - t.whereText.utf8ByteSize + " WHERE ".utf8ByteSize
  let compared := withOffsets start "=? AND ".utf8ByteSize t.filter
  if t.kind.isRead then withOffsets "SELECT ".utf8ByteSize ",".utf8ByteSize t.projection ++ compared
  else if t.kind = .insert then []
  else compared

/-- The names that a prepared statement reads without quotes. -/
def bareNames (p : Prepared) (sql : Sql) : List (String × Nat) :=
  if sql.text = p.native then [] else readNames p.template

/-- The first of some names that stands for nothing in a table. -/
def Database.unresolved? (db : Database) (table : String) (names : List (String × Nat)) :
    Option (String × Nat) :=
  (db.relation? table).bind fun r => names.find? fun entry => !r.definition.resolves entry.1

/-- Run a bound statement on a database at a clock reading. -/
def runBound (b : Bound) (now : Nat) (db : Database) : Except Failure (ResultSet × Database) :=
  match sqlOf b.statement with
  | .error failure => .error failure
  | .ok sql =>
    match db.unresolved? sql.table (bareNames b.statement sql) with
    | some (name, offset) => .error (.unknownName name b.statement.native offset)
    | none =>
      match db.run sql (parameters b now) with
      | .error e => .error (.run e)
      | .ok (answer, db') => (readAnswer b.template answer).map fun result => (result, db')

/-- Execute a bound statement. -/
def execute (b : Bound) (now : Nat) (c : Connection) (db : Database) :
    Except SessionError ResultSet × Database :=
  if c.closed then (.error .closed, db)
  else
    match runBound b now db with
    | .ok (result, db') => (.ok result, db')
    | .error failure => (.error failure.toSessionError, db)

/-! ### Purging and closing -/

/-- Delete the rows that have expired from the tables of some names, and count them. -/
def purgeAll (now : Nat) : List Layout → Database → Nat × Database
  | [], db => (0, db)
  | l :: rest, db =>
    let (count, db) := db.purge l.table.name.text (reading now)
    let (others, db) := purgeAll now rest db
    (count + others, db)

/-- Delete the expired rows of the tables that the session has prepared; none once it is
closed. -/
def purge (now : Nat) (c : Connection) (db : Database) : Option (Nat × Database) :=
  if c.closed then none else some (purgeAll now c.layouts db)

/-- Close the session; closing twice is closing once. -/
def close (c : Connection) : Connection := { c with closed := true }

end GroupStore.Sqlite
