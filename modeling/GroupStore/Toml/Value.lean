/-!
# TOML values

What stands on the right of an equals sign.  Floating point numbers and moments are kept as they
are written, because nothing here computes with them; tables hold their entries in ascending
order of the keys.
-/

namespace GroupStore.Toml

/-- A value. -/
inductive Value where
  | text (s : String)
  | integer (value : Int)
  | float (literal : String)
  | boolean (b : Bool)
  | datetime (literal : String)
  | array (items : List Value)
  | table (entries : List (String × Value))

/-- The entries of a table. -/
abbrev Entries := List (String × Value)

namespace Value

/-- The text of a text value. -/
def text? : Value → Option String
  | text s => some s
  | _ => none

/-- The number of an integer. -/
def integer? : Value → Option Int
  | integer value => some value
  | _ => none

/-- The flag of a boolean. -/
def boolean? : Value → Option Bool
  | boolean b => some b
  | _ => none

/-- The items of an array. -/
def array? : Value → Option (List Value)
  | array items => some items
  | _ => none

/-- The entries of a table. -/
def table? : Value → Option Entries
  | table entries => some entries
  | _ => none

end Value

end GroupStore.Toml
