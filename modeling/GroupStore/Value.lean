/-!
# Column kinds and column values

A stored column holds text, an opaque byte sequence or a flag.  Values are ordered by kind first
(text, then bytes, then flags) and by content second: text and bytes byte by byte, `false` before
`true`.  Text may be compared character by character, because in UTF-8 the order of the encoded
bytes is the order of the characters.
-/

namespace GroupStore

/-- The type of a column. -/
inductive ColumnKind where
  | text
  | blob
  | boolean
deriving DecidableEq

namespace ColumnKind

/-- The word for a kind. -/
def label : ColumnKind → String
  | text => "text"
  | blob => "blob"
  | boolean => "boolean"

/-- The place of a kind in the order. -/
def rank : ColumnKind → Nat
  | text => 0
  | blob => 1
  | boolean => 2

/-- Every kind, in order. -/
def all : List ColumnKind := [text, blob, boolean]

/-- The kind that a word names. -/
def ofLabel? (word : String) : Option ColumnKind := all.find? (·.label == word)

instance : Ord ColumnKind := ⟨fun a b => compare a.rank b.rank⟩

end ColumnKind

/-- Byte sequences are equal if their bytes are. -/
instance decidableEqBytes : DecidableEq ByteArray := ByteArray.instDecidableEq

/-- One bound or returned column value. -/
inductive Value where
  | text (s : String)
  | blob (bytes : ByteArray)
  | boolean (b : Bool)
deriving DecidableEq

namespace Value

/-- The kind of a value. -/
def kind : Value → ColumnKind
  | text _ => .text
  | blob _ => .blob
  | boolean _ => .boolean

/-- Two values of one kind compare by content, two of different kinds by kind. -/
protected def order : Value → Value → Ordering
  | text s, text t => compare s t
  | blob a, blob b => compare a.data.toList b.data.toList
  | boolean a, boolean b => compare a b
  | a, b => compare a.kind b.kind

instance : Ord Value := ⟨Value.order⟩

/-- The text of a text value. -/
def text? : Value → Option String
  | text s => some s
  | _ => none

/-- The bytes of a blob. -/
def blob? : Value → Option ByteArray
  | blob b => some b
  | _ => none

/-- The flag of a boolean. -/
def boolean? : Value → Option Bool
  | boolean b => some b
  | _ => none

end Value

end GroupStore
