import GroupStore.Session

/-!
# The memory store

A session that interprets templates over sorted maps.  Each table remembers the layout under
which it was first prepared; a row is kept under its primary-key values with the values of the
regular columns and the moment at which it expires.

* `Store.prepare` — accepts a template over known columns whose filter and condition fit the
  primary key, and registers its table;
* `Store.execute` — runs a bound statement at a clock reading; a failed statement leaves every
  table as it was;
* `Entry.expiredAt` — a row is gone once its moment is reached, whether it was purged or not.
-/

namespace GroupStore.Memory

/-! ### State -/

/-- The greatest clock reading, in milliseconds. -/
def maxTime : Nat := 18446744073709551615

/-- The stored part of a row. -/
structure Entry where
  /-- Values of the regular columns. -/
  values : List (Identifier × Value)
  /-- When the row expires, if it does. -/
  expiresAt : Option Nat
deriving DecidableEq

/-- Whether a row has expired at a clock reading. -/
def Entry.expiredAt (e : Entry) (now : Nat) : Bool :=
  match e.expiresAt with
  | none => false
  | some moment => moment ≤ now

/-- The rows of a table in the order of their keys. -/
abbrev Rows := List (List Value × Entry)

/-- A registered table. -/
structure Table where
  /-- The layout of the first statement prepared on it. -/
  layout : Layout
  /-- The stored rows. -/
  rows : Rows
deriving DecidableEq

/-- The state of one memory session. -/
structure Store where
  /-- Registered tables. -/
  tables : List Table
  /-- Kind and level of every statement executed, latest first. -/
  history : List (StatementKind × Consistency)
  /-- Whether the session has been closed. -/
  closed : Bool
deriving DecidableEq

/-- A fresh, open session. -/
def Store.empty : Store := ⟨[], [], false⟩

/-! ### Accepting templates -/

/-- Why a template is refused. -/
inductive Refusal where
  | unknownColumn (column : Identifier)
  | filterNotPrefix (kind : StatementKind)
  | partialInsert
  | partialKey (kind : StatementKind)
  | looseCondition
  | otherLayout (table : TableName)
deriving DecidableEq

/-- A refusal as the session reports it. -/
def Refusal.toSessionError : Refusal → SessionError
  | unknownColumn column => .prepare ("unknown column " ++ column.text)
  | filterNotPrefix kind => .unsupported (kind.label ++ " filter must be a primary key prefix")
  | partialInsert => .unsupported "insert must write every column"
  | partialKey kind => .unsupported (kind.label ++ " requires the full primary key")
  | looseCondition =>
    .unsupported
      "conditional delete requires the full primary key and a regular column condition"
  | otherLayout table =>
    .prepare ("table " ++ table.text ++ " already registered with a different layout")

/-- The first column named by a template that its layout lacks. -/
def unknownColumn? (t : Template) : Option Identifier :=
  (t.projection ++ t.filter ++ t.condition.toList).find? fun name =>
    (t.layout.column? name).isNone

/-- Whether the condition of a template is a regular column. -/
def conditionIsRegular (t : Template) : Bool :=
  match t.condition with
  | none => false
  | some column => t.layout.regular.any fun spec => spec.name = column

/-- The demands that a kind makes on its template. -/
def kindRefusal? (t : Template) : Option Refusal :=
  let full : Bool := t.filter.length = t.layout.primaryKey.length
  match t.kind with
  | .insert =>
    if t.projection.length = t.layout.columns.length then none else some .partialInsert
  | .selectByKey | .deleteByKey => if full then none else some (.partialKey t.kind)
  | .conditionalDelete => if full && conditionIsRegular t then none else some .looseCondition
  | .selectKeyAndId => none

/-- Why a template is refused, if it is: an unknown column first, a filter that is no prefix of
the primary key next, the demands of its kind last. -/
def refusal? (t : Template) : Option Refusal :=
  match unknownColumn? t with
  | some column => some (.unknownColumn column)
  | none =>
    if t.filter.isPrefixOf t.layout.keyNames then kindRefusal? t
    else some (.filterNotPrefix t.kind)

/-- The table of a name. -/
def Store.table? (s : Store) (name : TableName) : Option Table :=
  s.tables.find? fun table => table.layout.table = name

/-- Register the table of a layout unless it is known; a known one must have the same layout. -/
def Store.register (s : Store) (l : Layout) : Except Refusal Store :=
  match s.table? l.table with
  | none => .ok { s with tables := s.tables ++ [⟨l, []⟩] }
  | some table => if table.layout = l then .ok s else .error (.otherLayout l.table)

/-- Prepare a template; its native text is the query text. -/
def Store.prepare (s : Store) (t : Template) : Except SessionError Prepared × Store :=
  if s.closed then (.error .closed, s)
  else
    match refusal? t with
    | some refusal => (.error refusal.toSessionError, s)
    | none =>
      match s.register t.layout with
      | .error refusal => (.error refusal.toSessionError, s)
      | .ok s' => (.ok ⟨t, t.cql⟩, s')

/-! ### Executing statements -/

/-- Why an execution fails. -/
inductive Failure where
  | unknownTable (table : TableName)
  | unbound (column : Identifier)
  | noCondition
deriving DecidableEq

/-- A failure as the session reports it. -/
def Failure.toSessionError : Failure → SessionError
  | unknownTable table => .execution ("unknown table " ++ table.text)
  | unbound column => .execution ("no value bound for " ++ column.text)
  | noCondition => .execution "conditional delete without condition"

/-- The value bound to a column. -/
def boundValue (b : Bound) (column : Identifier) : Except Failure Value :=
  match b.value? column with
  | none => .error (.unbound column)
  | some value => .ok value

/-- The values bound to some columns, in order. -/
def boundValues (b : Bound) : List ColumnSpec → Except Failure (List (Identifier × Value))
  | [] => .ok []
  | spec :: rest => do
    let value ← boundValue b spec.name
    let others ← boundValues b rest
    return (spec.name, value) :: others

/-- When a row written now expires; the moment is held at the greatest reading. -/
def expiry (ttlSeconds : Option Nat) (now : Nat) : Option Nat :=
  ttlSeconds.map fun seconds => min (now + seconds * 1000) maxTime

/-- The value of a column in a stored row: from its key, else from its regular columns. -/
def cell? (l : Layout) (key : List Value) (e : Entry) (column : Identifier) : Option Value :=
  (Sorted.get? column (l.keyNames.zip key)).or (Sorted.get? column e.values)

/-- The projected columns of a stored row. -/
def project (l : Layout) (projection : List Identifier) (row : List Value × Entry) : Row :=
  Row.ofCells (projection.filterMap fun column =>
    (cell? l row.1 row.2 column).map fun value => (column.text, value))

/-- Write a row under the key bound to the primary-key columns. -/
def Table.insert (t : Table) (b : Bound) (now : Nat) : Except Failure (ResultSet × Table) := do
  let key ← boundValues b t.layout.primaryKey
  let values ← boundValues b t.layout.regular
  let entry : Entry := ⟨values, expiry b.template.ttlSeconds now⟩
  return (.empty, { t with rows := Sorted.put (key.map Prod.snd) entry t.rows })

/-- Read the row whose key is the bound values; an expired one is dropped instead. -/
def Table.selectByKey (t : Table) (b : Bound) (now : Nat) : ResultSet × Table :=
  match Sorted.get? b.values t.rows with
  | none => (.empty, t)
  | some entry =>
    if entry.expiredAt now then (.empty, { t with rows := Sorted.drop b.values t.rows })
    else (⟨[project t.layout b.template.projection (b.values, entry)]⟩, t)

/-- Drop the row whose key is the bound values. -/
def Table.deleteByKey (t : Table) (b : Bound) : ResultSet × Table :=
  (.empty, { t with rows := Sorted.drop b.values t.rows })

/-- Drop all expired rows and read those whose key begins with the bound values. -/
def Table.selectKeyAndId (t : Table) (b : Bound) (now : Nat) : ResultSet × Table :=
  let live := t.rows.filter fun row => !row.2.expiredAt now
  let found := live.filter fun row => b.values.isPrefixOf row.1
  (⟨found.map (project t.layout b.template.projection)⟩, { t with rows := live })

/-- The bound values of the primary key; none of them if there are too few. -/
def Table.boundKey (t : Table) (b : Bound) : List Value :=
  if t.layout.primaryKey.length ≤ b.values.length then
    b.values.take t.layout.primaryKey.length
  else []

/-- Drop a row while it lives and its condition column holds the bound value. -/
def Table.conditionalDelete (t : Table) (b : Bound) (now : Nat) :
    Except Failure (ResultSet × Table) :=
  match b.template.condition with
  | none => .error .noCondition
  | some column => do
    let expected ← boundValue b column
    let key := t.boundKey b
    match Sorted.get? key t.rows with
    | none => return (.flag false, t)
    | some entry =>
      if !entry.expiredAt now && Sorted.get? column entry.values = some expected then
        return (.flag true, { t with rows := Sorted.drop key t.rows })
      else return (.flag false, t)

/-- Run a statement on its table. -/
def Table.execute (t : Table) (b : Bound) (now : Nat) : Except Failure (ResultSet × Table) :=
  match b.template.kind with
  | .insert => t.insert b now
  | .selectByKey => .ok (t.selectByKey b now)
  | .deleteByKey => .ok (t.deleteByKey b)
  | .selectKeyAndId => .ok (t.selectKeyAndId b now)
  | .conditionalDelete => t.conditionalDelete b now

/-- Put a table in the place of the one with its name. -/
def Store.replace (s : Store) (name : TableName) (table : Table) : Store :=
  { s with tables := s.tables.map fun old => if old.layout.table = name then table else old }

/-- Run a bound statement at a clock reading.  Every statement that an open session is given is
counted, also one that fails. -/
def Store.execute (s : Store) (b : Bound) (now : Nat) : Except SessionError ResultSet × Store :=
  if s.closed then (.error .closed, s)
  else
    let s := { s with history := (b.template.kind, b.template.consistency) :: s.history }
    let name := b.template.layout.table
    match s.table? name with
    | none => (.error (Failure.unknownTable name).toSessionError, s)
    | some table =>
      match table.execute b now with
      | .error failure => (.error failure.toSessionError, s)
      | .ok (result, table') => (.ok result, s.replace name table')

/-- Close the session; closing twice is closing once. -/
def Store.close (s : Store) : Except SessionError Unit × Store :=
  (.ok (), { s with closed := true })

/-! ### Inspection -/

/-- The number of unexpired rows of the table written so; none if there is no such table. -/
def Store.rowCount (s : Store) (table : String) (now : Nat) : Nat :=
  match s.tables.find? fun t => t.layout.table.text == table with
  | none => 0
  | some t => (t.rows.filter fun row => !row.2.expiredAt now).length

/-- How often each kind was executed at each level, in the order of kinds, then levels. -/
def Store.usage (s : Store) : List (StatementKind × Consistency × Nat) :=
  StatementKind.all.flatMap fun kind => Consistency.levels.filterMap fun level =>
    match s.history.count (kind, level) with
    | 0 => none
    | n => some (kind, level, n)

end GroupStore.Memory
