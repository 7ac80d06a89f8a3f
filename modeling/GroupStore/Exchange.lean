import GroupStore.Json.Record

/-!
# Exchanges: the results that are stored

An exchange has the id that a later confirmation names, a JSON body, and headers and properties
by name.  Its text is an object of these four fields in this order.
-/

namespace GroupStore

open Json (Tree)

/-- A result: its id, body, headers and properties. -/
structure Exchange where
  /-- The id that confirms it. -/
  id : String
  /-- The accumulated body. -/
  body : Json
  /-- Headers in ascending order of their names. -/
  headers : List (String × Json)
  /-- Properties in ascending order of their names. -/
  properties : List (String × Json)

namespace Exchange

/-- The fields of the text, in order. -/
def fieldNames : List String := ["exchange_id", "body", "headers", "properties"]

/-- An exchange as a JSON value. -/
def toJson (x : Exchange) : Json :=
  .object [("exchange_id", .string x.id), ("body", x.body), ("headers", .object x.headers),
    ("properties", .object x.properties)]

/-- Read a map of values, in which at most `depth` containers are open at once. -/
def readMap? (depth : Nat) (t : Tree) : Option (List (String × Json)) :=
  match Json.ofTree? depth t with
  | some (.object fields) => some fields
  | _ => none

/-- Read a map that may be left out. -/
def readOptionalMap? (depth : Nat) : Option Tree → Option (List (String × Json))
  | none => some []
  | some t => readMap? depth t

/-- Read a string. -/
def readString? : Tree → Option String
  | .text raw => Json.readText? raw
  | _ => none

/-- Read an exchange in which at most `depth` containers are open at once besides its own. -/
def ofTree? (depth : Nat) (t : Tree) : Option Exchange :=
  match Json.Record.slots? fieldNames t with
  | some [some id, some body, headers, properties] => do
    let id ← readString? id
    let body ← Json.ofTree? depth body
    let headers ← readOptionalMap? depth headers
    let properties ← readOptionalMap? depth properties
    return ⟨id, body, headers, properties⟩
  | _ => none

end Exchange

end GroupStore
