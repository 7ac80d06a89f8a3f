import GroupStore.Statement.Cql
import GroupStore.Sorted

/-!
# Sessions: prepared statements, bindings and answers

What passes between a repository and a storage session.  A session prepares templates, executes
bound statements and answers with rows; how it stores them is its own business.

* `Prepared` and `Prepared.bind` — a statement and the check of the values bound to it;
* `Row` and its typed reads;
* `ResultSet` and `ResultSet.applied?`, the outcome of a conditional statement;
* `SessionError` — the failures that a session reports.
-/

namespace GroupStore

/-! ### Failures -/

/-- A failure reported by a session. -/
inductive SessionError where
  | connection (text : String)
  | prepare (text : String)
  | execution (text : String)
  | unsupported (text : String)
  | closed
deriving DecidableEq

/-- The wording of a session's failure. -/
def SessionError.message : SessionError → String
  | connection text => "session connection error: " ++ text
  | prepare text => "session prepare error: " ++ text
  | execution text => "session execution error: " ++ text
  | unsupported text => "session unsupported: " ++ text
  | closed => "session closed"

/-! ### Rows -/

/-- Why a typed read of a column fails. -/
inductive RowError where
  | missing (column : String)
  | mismatch (column : String) (expected : ColumnKind)
deriving DecidableEq

/-- The wording of a failed read. -/
def RowError.message : RowError → String
  | missing column => "missing column: " ++ column
  | mismatch column expected =>
    "column type mismatch: " ++ column ++ " is not " ++ expected.label

/-- A failed read reported as a failed execution. -/
def RowError.toSessionError (e : RowError) : SessionError := .execution e.message

/-- A returned row: a value for each of some columns. -/
structure Row where
  /-- The columns in ascending order, each once. -/
  cells : List (String × Value)
deriving DecidableEq

namespace Row

/-- The row of a list of cells; of two cells of one column the later one stays. -/
def ofCells (cells : List (String × Value)) : Row := ⟨Sorted.ofPairs cells⟩

/-- The value of a column. -/
def get? (r : Row) (column : String) : Option Value := Sorted.get? column r.cells

/-- A column read through one of the typed views. -/
def read (r : Row) (column : String) (expected : ColumnKind) (view : Value → Option α) :
    Except RowError α :=
  match r.get? column with
  | none => .error (.missing column)
  | some value =>
    match view value with
    | none => .error (.mismatch column expected)
    | some x => .ok x

/-- The text of a column. -/
def text (r : Row) (column : String) : Except RowError String := r.read column .text Value.text?

/-- The bytes of a column. -/
def blob (r : Row) (column : String) : Except RowError ByteArray := r.read column .blob Value.blob?

/-- The flag of a column. -/
def boolean (r : Row) (column : String) : Except RowError Bool :=
  r.read column .boolean Value.boolean?

end Row

/-- The column in which a conditional statement says whether it took effect. -/
def appliedColumn : String := "[applied]"

/-- The rows that an execution returns. -/
structure ResultSet where
  /-- The rows in the order returned. -/
  rows : List Row
deriving DecidableEq

namespace ResultSet

/-- No rows: the answer of a plain write. -/
def empty : ResultSet := ⟨[]⟩

/-- The answer of a conditional statement. -/
def flag (took : Bool) : ResultSet := ⟨[⟨[(appliedColumn, .boolean took)]⟩]⟩

/-- Whether a conditional statement took effect, as its first row says; none without rows. -/
def applied? (r : ResultSet) : Except RowError (Option Bool) :=
  match r.rows with
  | [] => .ok none
  | row :: _ => (row.boolean appliedColumn).map some

end ResultSet

/-! ### Bindings -/

/-- A statement that a session has prepared. -/
structure Prepared where
  /-- The statement. -/
  template : Template
  /-- The text that the session runs for it. -/
  native : String
deriving DecidableEq

/-- Why values cannot be bound. -/
inductive BindError where
  | count (kind : StatementKind) (expected actual : Nat)
  | unknownColumn (column : Identifier)
  | kindMismatch (column : Identifier) (expected actual : ColumnKind)
deriving DecidableEq

/-- The wording of a refused binding. -/
def BindError.message : BindError → String
  | count kind expected actual =>
    kind.label ++ " expects " ++ toString expected ++ " values, got " ++ toString actual
  | unknownColumn column => "unknown column " ++ column.text
  | kindMismatch column expected actual =>
    "column " ++ column.text ++ " expects " ++ expected.label ++ ", got " ++ actual.label

/-- Check each value against the kind of its column. -/
def Layout.accept (l : Layout) : List (Identifier × Value) → Except BindError Unit
  | [] => .ok ()
  | (column, value) :: rest =>
    match l.column? column with
    | none => .error (.unknownColumn column)
    | some spec =>
      if spec.kind = value.kind then l.accept rest
      else .error (.kindMismatch column spec.kind value.kind)

/-- Check values against the parameter columns: their number first, then kind by kind. -/
def Template.accept (t : Template) (values : List Value) : Except BindError Unit :=
  if t.parameterColumns.length = values.length then
    t.layout.accept (t.parameterColumns.zip values)
  else .error (.count t.kind t.parameterColumns.length values.length)

/-- A statement with the values of its parameters. -/
structure Bound where
  /-- The prepared statement. -/
  statement : Prepared
  /-- One value per parameter column. -/
  values : List Value
  /-- Every value has the kind of its column. -/
  admitted : statement.template.accept values = .ok ()
deriving DecidableEq

/-- Bind values to the parameter columns, in order. -/
def Prepared.bind (p : Prepared) (values : List Value) : Except BindError Bound :=
  match h : p.template.accept values with
  | .ok () => .ok ⟨p, values, h⟩
  | .error e => .error e

/-- The template of a bound statement. -/
def Bound.template (b : Bound) : Template := b.statement.template

/-- The value bound to the first parameter of a name. -/
def Bound.value? (b : Bound) (column : Identifier) : Option Value :=
  Sorted.get? column (b.template.parameterColumns.zip b.values)

end GroupStore
