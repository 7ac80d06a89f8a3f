import GroupStore.Sqlite.Sql

/-!
# Databases: tables of typed cells

The meaning of the statements of `Sql`.  Names of tables and columns are compared without regard
to case.  A table keeps the definition under which it was created; creating it again changes
nothing.

Every row has a number of its own, which can be addressed by names that no column has.  A name in
quotes that is neither a column nor such a name is taken for a text, except where an insert assigns
to it.

* `Database.create` — create a table unless it is there;
* `Database.knows` — whether a statement can be prepared: its table is there, and what it assigns
  to;
* `Database.run` — execute a statement with parameters.
-/

namespace GroupStore.Sqlite

/-- A name without its case. -/
def caseless (name : String) : String := name.map Char.toLower

/-- Whether two names are the same but for their case. -/
def sameName (a b : String) : Bool := caseless a == caseless b

/-- Some cells of a row. -/
abbrev Cells := List Cell

/-- A row: its number in the table, and one cell per column. -/
structure Record where
  number : Int
  cells : Cells
deriving DecidableEq

/-- A table with its rows, oldest first. -/
structure Relation where
  definition : Definition
  rows : List Record
deriving DecidableEq

/-- All tables of a database. -/
structure Database where
  relations : List Relation
deriving DecidableEq

/-- A database without tables. -/
def Database.empty : Database := ⟨[]⟩

/-- The table of a name. -/
def Database.relation? (db : Database) (name : String) : Option Relation :=
  db.relations.find? fun r => sameName r.definition.name name

/-! ### Names -/

/-- The column of a name. -/
def Definition.column? (d : Definition) (name : String) : Option Column :=
  d.columns.find? fun column => sameName column.name name

/-- Whether a table has a column of a name. -/
def Definition.hasColumn (d : Definition) (name : String) : Bool := (d.column? name).isSome

/-- The names that stand for the number of a row where no column has them. -/
def numberNames : List String := ["rowid", "oid", "_rowid_"]

/-- Whether the content of a column is the number of the row: it holds integers, and is the whole
key. -/
def Definition.isNumberColumn (d : Definition) (column : Column) : Bool :=
  match d.key with
  | [name] => sameName name column.name && column.affinity = .integer
  | _ => false

/-- Whether a name stands for the number of a row. -/
def Definition.isNumber (d : Definition) (name : String) : Bool :=
  match d.column? name with
  | some column => d.isNumberColumn column
  | none => numberNames.contains (caseless name)

/-- Whether a name stands for something in the rows of a table. -/
def Definition.resolves (d : Definition) (name : String) : Bool :=
  d.hasColumn name || d.isNumber name

/-! ### Creating -/

/-- Why a table is not created. -/
inductive CreateError where
  | reservedName (table : String)
  | duplicateColumn (column : String)
  | tooManyColumns (table : String)
  /-- The text of the creation lists no columns for the key. -/
  | emptyKey (text : String)
  /-- The key has a name that is no column. -/
  | keyOutside
deriving DecidableEq

/-- The part of a creation's text from the end of the key on. -/
def keyEnding : String := "));"

/-- The wording of a refused creation. -/
def CreateError.message : CreateError → String
  | reservedName table => "object name reserved for internal use: " ++ table
  | duplicateColumn column => "duplicate column name: " ++ column
  | tooManyColumns table => "too many columns on " ++ table
  | emptyKey text =>
    "near \")\": syntax error in " ++ text ++ " at offset "
      ++ toString (text.utf8ByteSize - keyEnding.utf8ByteSize)
  | keyOutside => "expressions prohibited in PRIMARY KEY and UNIQUE constraints"

/-- The beginning of names that belong to the database itself. -/
def reservedBeginning : String := "sqlite_"

/-- Whether a name belongs to the database itself. -/
def isReserved (name : String) : Bool := reservedBeginning.toList.isPrefixOf (caseless name).toList

/-- The most columns that a table can have. -/
def maxColumns : Nat := 2000

/-- The first column whose name is among those before it. -/
def duplicateColumn? (seen : List String) : List Column → Option String
  | [] => none
  | c :: rest =>
    if seen.contains (caseless c.name) then some c.name
    else duplicateColumn? (caseless c.name :: seen) rest

/-- The first fault of a definition, as its text is read. -/
def Definition.fault? (d : Definition) : Option CreateError :=
  match duplicateColumn? [] (d.columns.take maxColumns) with
  | some column => some (.duplicateColumn column)
  | none =>
    if maxColumns < d.columns.length then some (.tooManyColumns d.name)
    else if d.key = [] then some (.emptyKey d.createText)
    else if d.key.all d.hasColumn then none
    else some .keyOutside

/-- Create a table unless there is one of its name; its text is read in either case. -/
def Database.create (db : Database) (d : Definition) : Except CreateError Database :=
  if isReserved d.name then .error (.reservedName d.name)
  else
    match db.relation? d.name with
    | some _ => if d.key = [] then .error (.emptyKey d.createText) else .ok db
    | none =>
      match d.fault? with
      | some fault => .error fault
      | none => .ok ⟨db.relations ++ [⟨d, []⟩]⟩

/-! ### Preparing -/

/-- The most conditions that a statement can have. -/
def maxConditions : Nat := 999

/-- The most parameters that a statement can have. -/
def maxParameters : Nat := 32766

/-- Whether the text of a statement can be read: a select returns something, and there are not too
many columns, conditions or parameters. -/
def Sql.isReadable : Sql → Bool
  | upsert _ columns => columns.length ≤ maxParameters
  | select _ columns rows =>
    columns ≠ [] && columns.length ≤ maxColumns && rows.parameters ≤ maxConditions
  | delete _ rows => rows.parameters ≤ maxConditions

/-- The names to which a statement assigns, in the order in which they are looked up. -/
def Sql.assigned : Sql → List String
  | upsert _ columns => columns
  | _ => []

/-- The first name to which a statement assigns and for which a table has no place. -/
def Definition.unknown? (d : Definition) (sql : Sql) : Option String :=
  sql.assigned.find? fun name => !d.resolves name

/-- Whether a readable statement assigns only where a table has a place. -/
def Definition.admits (d : Definition) (sql : Sql) : Bool :=
  sql.isReadable && (d.unknown? sql).isNone

/-- The table that a statement works on. -/
def Sql.table : Sql → String
  | upsert table _ => table
  | select table _ _ => table
  | delete table _ => table

/-- Whether a statement can be prepared. -/
def Database.knows (db : Database) (sql : Sql) : Bool :=
  match db.relation? sql.table with
  | none => false
  | some r => r.definition.admits sql

/-! ### Rows -/

/-- What a name in quotes stands for in a row: the number of the row, the cell of a column, or the
name itself where the table has neither. -/
def Definition.cell (d : Definition) (row : Record) (name : String) : Cell :=
  if d.isNumber name then .integer row.number
  else if d.hasColumn name then
    (((d.columns.zip row.cells).find? fun entry => sameName entry.1.name name).map
      Prod.snd).getD .null
  else .text name

/-- A parameter as it is compared with what a name stands for. -/
def Definition.convert (d : Definition) (name : String) (c : Cell) : Cell :=
  if d.isNumber name then Affinity.integer.convert c
  else
    match d.column? name with
    | some column => column.affinity.convert c
    | none => c

/-- Whether what some names stand for in a row equals the parameters. -/
def Definition.matches (d : Definition) (row : Record) : List String → List Cell → Bool
  | [], _ => true
  | _ :: _, [] => false
  | name :: names, c :: cells =>
    (d.cell row name).sameAs (d.convert name c) && d.matches row names cells

/-- Whether a row lives at a reading. -/
def Definition.isLive (d : Definition) (row : Record) (now : Int) : Bool :=
  match d.cell row expiryColumn with
  | .null => true
  | c => c.above now

/-- The clock reading in the last parameter of a guard. -/
def Guard.reading (g : Guard) (parameters : List Cell) : Int :=
  match parameters[g.equals.length]? with
  | some (.integer now) => now
  | _ => 0

/-- Whether a row passes a guard. -/
def Guard.admits (g : Guard) (d : Definition) (parameters : List Cell) (row : Record) : Bool :=
  d.matches row g.equals parameters && (!g.live || d.isLive row (g.reading parameters))

/-- Whether two rows have the same key. -/
def Definition.sameKey (d : Definition) (a b : Record) : Bool :=
  d.key.all fun name => (d.cell a name).sameAs (d.cell b name)

/-- Whether a row takes the place of another: they have one number or one key. -/
def Definition.replaces (d : Definition) (row old : Record) : Bool :=
  old.number = row.number || d.sameKey old row

/-- The cells that an insert writes: for each column of the table the parameter that belongs to its
name, and nothing where none does or the number of the row is meant. -/
def Definition.cellsOf (d : Definition) (columns : List String) (parameters : List Cell) : Cells :=
  d.columns.map fun column =>
    if d.isNumberColumn column then .null
    else
      match (columns.zip parameters).find? fun entry => sameName entry.1 column.name with
      | some entry => column.affinity.convert entry.2
      | none => .null

/-- The first required column that some cells leave empty. -/
def Definition.missing? (d : Definition) (cells : Cells) : Option String :=
  ((d.columns.zip cells).find? fun entry =>
    entry.1.required && !d.isNumberColumn entry.1 && entry.2 = .null).map fun entry => entry.1.name

/-- What an insert assigns last to the number of its row. -/
def Definition.assignedNumber? (d : Definition) (columns : List String) (parameters : List Cell) :
    Option Cell :=
  (((columns.zip parameters).filter fun entry => d.isNumber entry.1).getLast?).map Prod.snd

/-- The first number from one on that is not among others. -/
def firstFree (taken : List Int) : Int :=
  let candidates := (List.range (taken.length + 1)).map fun i : Nat => (i : Int) + 1
  (candidates.find? fun n => !taken.contains n).getD 1

/-- A number that no row of a table has: the one after the greatest.  Once the greatest of all is
taken, the engine tries numbers at random. -/
def Relation.nextNumber (r : Relation) : Int :=
  match (r.rows.map Record.number).max? with
  | none => 1
  | some last => if last < maxInteger then last + 1 else firstFree (r.rows.map Record.number)

/-- The number of the row that an insert writes; none if what it assigns is no integer. -/
def Relation.numberFor? (r : Relation) (columns : List String) (parameters : List Cell) :
    Option Int :=
  match r.definition.assignedNumber? columns parameters with
  | none | some .null => some r.nextNumber
  | some c =>
    match Affinity.integer.convert c with
    | .integer number => some number
    | _ => none

/-! ### Executing -/

/-- Why a statement fails. -/
inductive RunError where
  | noTable (table : String)
  | noColumn (table column : String)
  | parameterCount (given needed : Nat)
  /-- The number of a row must be an integer. -/
  | mismatch
  | notNull (table column : String)
deriving DecidableEq

/-- The wording of a failed statement. -/
def RunError.message : RunError → String
  | noTable table => "no such table: " ++ table
  | noColumn table column => "table " ++ table ++ " has no column named " ++ column
  | parameterCount given needed =>
    "Wrong number of parameters passed to query. Got " ++ toString given ++ ", needed "
      ++ toString needed
  | mismatch => "datatype mismatch"
  | notNull table column => "NOT NULL constraint failed: " ++ table ++ "." ++ column

/-- What a statement returns. -/
structure Answer where
  /-- The projected rows of a select. -/
  rows : List Cells
  /-- The number of rows written or deleted. -/
  changed : Nat
deriving DecidableEq

/-- Execute a statement on its table. -/
def Relation.run (r : Relation) (sql : Sql) (parameters : List Cell) :
    Except RunError (Answer × Relation) :=
  let d := r.definition
  match sql with
  | .upsert _ columns =>
    match r.numberFor? columns parameters with
    | none => .error .mismatch
    | some number =>
      let row : Record := ⟨number, d.cellsOf columns parameters⟩
      match d.missing? row.cells with
      | some column => .error (.notNull d.name column)
      | none =>
        .ok (⟨[], 1⟩, { r with rows := r.rows.filter (fun old => !d.replaces row old) ++ [row] })
  | .select _ columns rows =>
    .ok (⟨(r.rows.filter (rows.admits d parameters)).map fun row => columns.map (d.cell row), 0⟩, r)
  | .delete _ rows =>
    let kept := r.rows.filter fun row => !rows.admits d parameters row
    .ok (⟨[], r.rows.length - kept.length⟩, { r with rows := kept })

/-- Put a table in the place of the one with its name. -/
def Database.replace (db : Database) (name : String) (r : Relation) : Database :=
  ⟨db.relations.map fun old => if sameName old.definition.name name then r else old⟩

/-- Execute a statement; the number of parameters must be right. -/
def Database.run (db : Database) (sql : Sql) (parameters : List Cell) :
    Except RunError (Answer × Database) :=
  match db.relation? sql.table with
  | none => .error (.noTable sql.table)
  | some r =>
    match r.definition.unknown? sql with
    | some column => .error (.noColumn sql.table column)
    | none =>
      if parameters.length = sql.parameters then
        match r.run sql parameters with
        | .ok (answer, r') => .ok (answer, db.replace sql.table r')
        | .error e => .error e
      else .error (.parameterCount (min parameters.length (sql.parameters + 1)) sql.parameters)

/-- Delete the rows of a table that have expired at a reading, and count them. -/
def Database.purge (db : Database) (name : String) (now : Int) : Nat × Database :=
  match db.relation? name with
  | none => (0, db)
  | some r =>
    let kept := r.rows.filter fun row => r.definition.isLive row now
    (r.rows.length - kept.length, db.replace name { r with rows := kept })

/-- The definitions of all tables, by name. -/
def Database.schema (db : Database) : List String :=
  (db.relations.map Relation.definition).mergeSort (fun a b => a.name ≤ b.name)
    |>.map Definition.schemaText

end GroupStore.Sqlite
