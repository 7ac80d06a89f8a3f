import GroupStore.Toml.Value
import GroupStore.Sorted

/-!
# Tables under construction

A table comes into being in one of three ways: its own header opens it (as inline tables and the
elements of arrays of tables are open from the start), the header of a table below implies it, or
a dotted key implies it.  How it came into being decides what may still be added:

* a header opens each table once, and none that a dotted key made;
* a dotted key passes only through implied tables and assigns only in those that dotted keys
  made;
* nothing is assigned twice, and nothing extends a value.
-/

namespace GroupStore.Toml

/-- How a table came into being. -/
inductive Origin where
  | opened
  | implied
  | dotted
deriving DecidableEq

/-- What stands under a key while a document is read. -/
inductive Node where
  | value (v : Value)
  | table (origin : Origin) (entries : List (String × Node))
  /-- An array of tables, the latest element first. -/
  | tables (elements : List (List (String × Node)))

/-- The entries of a table under construction. -/
abbrev Nodes := List (String × Node)

namespace Node

mutual

/-- The finished value. -/
def toValue : Node → Value
  | value v => v
  | table _ entries => .table (toEntries entries)
  | tables elements => .array (toItems elements).reverse

/-- The finished entries. -/
def toEntries : List (String × Node) → List (String × Value)
  | [] => []
  | (key, node) :: rest => (key, toValue node) :: toEntries rest

/-- The finished elements, in the order in which they are kept. -/
def toItems : List (List (String × Node)) → List Value
  | [] => []
  | entries :: rest => .table (toEntries entries) :: toItems rest

end

/-- A change of a table: how it is regarded and what it holds. -/
abbrev Change := Origin → Nodes → Option (Origin × Nodes)

/-- Change the table that a path of keys leads to from another one.  Missing tables are made;
`byDots` says whether the path is a dotted key or a header. -/
def within (byDots : Bool) (change : Change) : List String → Change
  | [], origin, entries => change origin entries
  | key :: path, origin, entries =>
    match Sorted.get? key entries with
    | none => do
      let (inner, below) ← within byDots change path (if byDots then .dotted else .implied) []
      return (origin, Sorted.put key (.table inner below) entries)
    | some (.table inner below) =>
      if byDots ∧ inner = .opened then none
      else do
        let (inner, below) ← within byDots change path inner below
        return (origin, Sorted.put key (.table inner below) entries)
    | some (.tables (latest :: earlier)) => do
      let (_, latest) ← within byDots change path .opened latest
      return (origin, Sorted.put key (.tables (latest :: earlier)) entries)
    | some _ => none

/-- Assign a value to a key; `byDots` says whether the key was the last of several. -/
def assign (byDots : Bool) (key : String) (v : Value) : Change := fun origin entries =>
  if (origin = .dotted) ≠ byDots then none
  else if Sorted.has key entries then none
  else some (origin, Sorted.put key (.value v) entries)

/-- Assign a value to a dotted key. -/
def assignAt (keys : List String) (v : Value) : Change := fun origin entries =>
  match keys.getLast? with
  | none => none
  | some key =>
    let path := keys.dropLast
    within true (assign (!path.isEmpty) key v) path origin entries

/-- Open a table by its header. -/
def openTable (key : String) : Change := fun origin entries =>
  match Sorted.get? key entries with
  | none => some (origin, Sorted.put key (.table .opened []) entries)
  | some (.table .implied below) => some (origin, Sorted.put key (.table .opened below) entries)
  | some _ => none

/-- Open a further element of an array of tables. -/
def openElement (key : String) : Change := fun origin entries =>
  match Sorted.get? key entries with
  | none => some (origin, Sorted.put key (.tables [[]]) entries)
  | some (.tables elements) => some (origin, Sorted.put key (.tables ([] :: elements)) entries)
  | some _ => none

/-- Apply a change below a path of header keys to its last key. -/
def atLast (change : String → Change) (keys : List String) : Change := fun origin entries =>
  match keys.getLast? with
  | none => none
  | some key => within false (change key) keys.dropLast origin entries

end Node

end GroupStore.Toml
