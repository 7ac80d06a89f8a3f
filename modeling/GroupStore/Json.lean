import GroupStore.Json.Tree
import GroupStore.Json.Text
import GroupStore.Sorted

/-!
# JSON values

A value is a tree whose literals have been evaluated.  Objects that were read have their fields
in ascending order of the names, each name once with the value written last; objects that are
built keep the order in which they are built.

* `Json.ofTree?` — evaluate a tree in which at most so many containers are open at once;
* `Json.text` — the text without blanks.
-/

namespace GroupStore

/-- A JSON value. -/
inductive Json where
  | null
  | bool (b : Bool)
  | number (n : Json.Number)
  | string (s : String)
  | array (items : List Json)
  | object (fields : List (String × Json))

namespace Json

/-! ### Writing -/

mutual

/-- Append the text of a value. -/
def write (out : String) : Json → String
  | null => out ++ "null"
  | bool true => out ++ "true"
  | bool false => out ++ "false"
  | number n => out ++ n.text
  | string s => out ++ quoted s
  | array [] => out ++ "[]"
  | array (item :: items) => writeItems (write (out ++ "[") item) items ++ "]"
  | object [] => out ++ "\x7b\x7d"
  | object ((name, value) :: fields) =>
    writeFields (write (out ++ "\x7b" ++ quoted name ++ ":") value) fields ++ "\x7d"

/-- Append further items, each after a comma. -/
def writeItems (out : String) : List Json → String
  | [] => out
  | item :: items => writeItems (write (out ++ ",") item) items

/-- Append further fields, each after a comma. -/
def writeFields (out : String) : List (String × Json) → String
  | [] => out
  | (name, value) :: fields =>
    writeFields (write (out ++ "," ++ quoted name ++ ":") value) fields

end

/-- The text of a value. -/
def text (v : Json) : String := write "" v

/-- An integer. -/
def int (n : Int) : Json := number (.int n)

/-- A string, or null. -/
def optional : Option String → Json
  | none => null
  | some s => string s

/-! ### Reading -/

/-- The fields of an object: names decoded, sorted, the last value of a name kept. -/
def collect (fields : List (String × Json)) : List (String × Json) := Sorted.ofPairs fields

/-- Evaluate a tree in which at most `depth` containers are open at once; none for one that is
deeper, for a number out of range and for a string that does not decode. -/
def ofTree? : Nat → Tree → Option Json
  | _, .null => some null
  | _, .bool b => some (bool b)
  | _, .number n => n.value?.map number
  | _, .text raw => (readText? raw).map string
  | 0, .array _ => none
  | 0, .object _ => none
  | depth + 1, .array items => (items.mapM (ofTree? depth)).map array
  | depth + 1, .object fields =>
    (fields.mapM fun (field : List UInt8 × Tree) => do
      let name ← readText? field.1
      let value ← ofTree? depth field.2
      return (name, value)).map fun fields => object (collect fields)

/-- The greatest number of containers open at once in a text that is read as a value. -/
def maxDepth : Nat := 127

/-- Read a text as a value. -/
def ofBytes? (bytes : List UInt8) : Option Json := (Tree.ofBytes? bytes).bind (ofTree? maxDepth)

/-- Read a text as a value. -/
def ofText? (s : String) : Option Json := ofBytes? s.toUTF8.toList

end Json

end GroupStore
