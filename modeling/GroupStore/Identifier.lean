/-!
# Identifiers: the names that need no quoting

Column, table and keyspace names are plain identifiers: a letter or an underscore, then letters,
digits and underscores, at most 48 bytes in all.  The rule is part of the type, so every text
that a statement is assembled from is free of separators, quotes and keywords' blanks.

* `Identifier` — a text together with the proof that it is well formed;
* `Identifier.ofText` — the check, with the first reason that fails;
* `TableName` — one identifier, or two joined by a single dot.
-/

namespace GroupStore

/-! ### The shape of a plain name -/

/-- A letter of the basic alphabet or an underscore may begin a name. -/
def Identifier.begins (c : Char) : Bool := c.isAlpha || c == '_'

/-- After the first place digits are allowed too. -/
def Identifier.continues (c : Char) : Bool := c.isAlphanum || c == '_'

/-- A name has a first character that may begin one and no character that may not go on. -/
def Identifier.shaped : List Char → Bool
  | [] => false
  | c :: rest => begins c && rest.all continues

/-- The greatest number of bytes of a name. -/
def Identifier.maxBytes : Nat := 48

/-- A well-formed name. -/
structure Identifier where
  /-- The name as written. -/
  text : String
  /-- Only characters of a plain name. -/
  plain : Identifier.shaped text.toList = true
  /-- No longer than the limit. -/
  short : text.utf8ByteSize ≤ Identifier.maxBytes
deriving DecidableEq

/-! ### Refusals -/

/-- What a name is meant for. -/
inductive NameRole where
  | column
  | keyspace
  | table
deriving DecidableEq

/-- The word for a role in messages. -/
def NameRole.label : NameRole → String
  | .column => "column"
  | .keyspace => "keyspace"
  | .table => "table"

/-- Why a text is no name. -/
inductive NameError where
  | empty (role : NameRole)
  | tooLong (role : NameRole) (text : String)
  | malformed (role : NameRole) (text : String)
  | overqualified (text : String)
deriving DecidableEq

/-- The wording of a refused name. -/
def NameError.message : NameError → String
  | .empty role => role.label ++ " name must be non-empty"
  | .tooLong role text =>
    role.label ++ " name exceeds " ++ toString Identifier.maxBytes ++ " bytes: " ++ text
  | .malformed role text => role.label ++ " name must match [A-Za-z_][A-Za-z0-9_]*: " ++ text
  | .overqualified text => "table name has more than one qualifier: " ++ text

/-! ### Reading names -/

/-- Read a name; emptiness is reported before length, and length before shape. -/
def Identifier.ofText (role : NameRole) (text : String) : Except NameError Identifier :=
  if text = "" then .error (.empty role)
  else if short : text.utf8ByteSize ≤ maxBytes then
    if plain : shaped text.toList = true then .ok ⟨text, plain, short⟩
    else .error (.malformed role text)
  else .error (.tooLong role text)

instance : ToString Identifier := ⟨Identifier.text⟩

/-- A table: its own name and the keyspace it lives in, if one is given. -/
structure TableName where
  /-- The qualifier before the dot. -/
  keyspace : Option Identifier
  /-- The unqualified name. -/
  name : Identifier
deriving DecidableEq

/-- The table as it is written in statements. -/
def TableName.text (t : TableName) : String :=
  match t.keyspace with
  | none => t.name.text
  | some k => k.text ++ "." ++ t.name.text

instance : ToString TableName := ⟨TableName.text⟩

/-- Split a list of characters at every dot; there is always at least one part. -/
def TableName.parts : List Char → List (List Char)
  | [] => [[]]
  | c :: rest =>
    if c = '.' then [] :: parts rest
    else
      match parts rest with
      | [] => [[c]]
      | part :: others => (c :: part) :: others

/-- Read a table name; a second dot is reported before a fault of any part, and the keyspace
before the name. -/
def TableName.ofText (text : String) : Except NameError TableName :=
  match parts text.toList with
  | [part] => do
    let name ← Identifier.ofText .table (String.ofList part)
    return ⟨none, name⟩
  | [qualifier, part] => do
    let keyspace ← Identifier.ofText .keyspace (String.ofList qualifier)
    let name ← Identifier.ofText .table (String.ofList part)
    return ⟨some keyspace, name⟩
  | _ => .error (.overqualified text)

end GroupStore
