import GroupStore.Value
import GroupStore.Sqlite.Number

/-!
# Typed cells of a database table

A cell holds nothing, a number, text or bytes.  A column has an affinity, towards which values are
converted when they are stored in it or compared with it: integers become text in a text column,
text that spells a number becomes that number in an integer column.
-/

namespace GroupStore.Sqlite

/-- The content of one cell. -/
inductive Cell where
  | null
  | integer (value : Int)
  /-- A floating point number that has no integer's place. -/
  | real (value : Rat)
  /-- A floating point number beyond the greatest. -/
  | infinite (negative : Bool)
  | text (s : String)
  | blob (bytes : ByteArray)
deriving DecidableEq

/-- Towards which kind of cell a column converts. -/
inductive Affinity where
  | text
  | blob
  | integer
deriving DecidableEq

/-- The declared type of a column for values of a kind. -/
def Affinity.ofKind : ColumnKind → Affinity
  | .text => .text
  | .blob => .blob
  | .boolean => .integer

/-- The word for a declared type. -/
def Affinity.label : Affinity → String
  | text => "TEXT"
  | blob => "BLOB"
  | integer => "INTEGER"

/-- The cell of a bound value; a flag is stored as one or zero. -/
def Cell.ofValue : Value → Cell
  | .text s => .text s
  | .blob b => .blob b
  | .boolean b => .integer (if b then 1 else 0)

/-- The value of a cell as a kind; none if the cell does not hold such data. -/
def Cell.toValue? : ColumnKind → Cell → Option Value
  | .text, .text s => some (.text s)
  | .blob, .blob b => some (.blob b)
  | .boolean, .integer i => some (.boolean (i ≠ 0))
  | _, _ => none

/-- The cell of a number. -/
def Cell.ofNumber : Number → Cell
  | .integer value => .integer value
  | .real value => .real value
  | .infinite negative => .infinite negative

/-- Convert a cell towards an affinity. -/
def Affinity.convert : Affinity → Cell → Cell
  | .text, .integer i => .text (toString i)
  | .integer, .text s =>
    match Number.ofText? s with
    | some number => .ofNumber number
    | none => .text s
  | _, c => c

/-- A cell as it is compared: integers are compared with other numbers by their value. -/
def Cell.measure : Cell → Cell
  | .integer i => .real i
  | c => c

/-- Whether two cells are equal as a comparison sees it: nothing equals nothing. -/
def Cell.sameAs (a b : Cell) : Bool := a ≠ .null && a.measure = b.measure

/-- Whether a cell lies above an integer: text and bytes lie above all numbers. -/
def Cell.above : Cell → Int → Bool
  | .null, _ => false
  | .integer i, bound => bound < i
  | .real value, bound => (bound : Rat) < value
  | .infinite negative, _ => !negative
  | _, _ => true

end GroupStore.Sqlite
