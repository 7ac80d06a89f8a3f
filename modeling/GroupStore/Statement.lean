import GroupStore.Layout
import GroupStore.Consistency

/-!
# Statement templates

A template describes one prepared statement as plain data: what it does, the table layout, the
columns it writes or returns, the columns it filters by, the column that a conditional delete
compares, the time-to-live of inserted rows and the consistency level.
-/

namespace GroupStore

/-- What a statement does. -/
inductive StatementKind where
  /-- Write every column of one row, replacing the row of the same key. -/
  | insert
  /-- Read one row. -/
  | selectByKey
  /-- Delete one row. -/
  | deleteByKey
  /-- Read keys and exchange ids under the fixed prefix. -/
  | selectKeyAndId
  /-- Delete one row while its exchange id still matches. -/
  | conditionalDelete
deriving DecidableEq

namespace StatementKind

/-- The word for a kind. -/
def label : StatementKind → String
  | insert => "insert"
  | selectByKey => "select_by_key"
  | deleteByKey => "delete_by_key"
  | selectKeyAndId => "select_key_and_id"
  | conditionalDelete => "conditional_delete"

/-- Every kind, in order. -/
def all : List StatementKind :=
  [insert, selectByKey, deleteByKey, selectKeyAndId, conditionalDelete]

/-- The place of a kind among all kinds. -/
def rank (kind : StatementKind) : Nat := all.idxOf kind

/-- The kind that a word names. -/
def ofLabel? (word : String) : Option StatementKind := all.find? (·.label == word)

/-- The kinds that only read. -/
def isRead : StatementKind → Bool
  | selectByKey | selectKeyAndId => true
  | _ => false

instance : Ord StatementKind := ⟨fun a b => compare a.rank b.rank⟩

end StatementKind

/-- One prepared statement as data. -/
structure Template where
  /-- What it does. -/
  kind : StatementKind
  /-- The table it works on. -/
  layout : Layout
  /-- Columns written by an insert or returned by a select. -/
  projection : List Identifier
  /-- Columns compared for equality, in binding order. -/
  filter : List Identifier
  /-- The column that a conditional delete compares besides. -/
  condition : Option Identifier
  /-- Seconds that an inserted row lives. -/
  ttlSeconds : Option Nat
  /-- Requested acknowledgement. -/
  consistency : Consistency
deriving DecidableEq

/-- The columns whose values are bound, in binding order. -/
def Template.parameterColumns (t : Template) : List Identifier :=
  match t.kind with
  | .insert => t.projection
  | _ => t.filter ++ t.condition.toList

end GroupStore
