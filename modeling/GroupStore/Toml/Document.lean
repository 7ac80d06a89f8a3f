import GroupStore.Toml.Key
import GroupStore.Toml.Scalar
import GroupStore.Toml.Section

/-!
# TOML documents

A document is a sequence of lines: assignments, headers of tables, headers of elements of arrays
of tables, comments and nothing.  Arrays and inline tables may spread over lines, may end with a
comma and may nest at most eighty deep.

* `parse?` — the entries of the root table, or nothing for a text that is no document.
-/

namespace GroupStore.Toml

/-! ### Values -/

/-- The greatest number of arrays and inline tables open at once. -/
def maxDepth : Nat := 80

/-- Read the items of an array up to its end; `fuel` bounds their number. -/
def readItems? (readValue : Reader Value) : Nat → List Value → Reader (List Value)
  | 0, _, _ => none
  | fuel + 1, done, cs =>
    match skipSpace false cs with
    | ']' :: rest => some (done.reverse, rest)
    | cs =>
      match readValue cs with
      | none => none
      | some (item, rest) =>
        match skipSpace false rest with
        | ',' :: rest => readItems? readValue fuel (item :: done) rest
        | ']' :: rest => some ((item :: done).reverse, rest)
        | _ => none

/-- Read an assignment. -/
def readAssignment? (readValue : Reader Value) : Reader (List String × Value) := fun cs => do
  let (keys, rest) ← readKey? cs
  match skipBlanks rest with
  | '=' :: rest => do
    let (value, rest) ← readValue (skipBlanks rest)
    return ((keys, value), rest)
  | _ => none

/-- Read the assignments of an inline table up to its end; `fuel` bounds their number. -/
def readEntries? (readValue : Reader Value) : Nat → Nodes → Reader Nodes
  | 0, _, _ => none
  | fuel + 1, done, cs =>
    match skipSpace false cs with
    | '\x7d' :: rest => some (done, rest)
    | cs =>
      match readAssignment? readValue cs with
      | none => none
      | some ((keys, value), rest) =>
        match Node.assignAt keys value .opened done with
        | none => none
        | some (_, done) =>
          match skipSpace false rest with
          | ',' :: rest => readEntries? readValue fuel done rest
          | '\x7d' :: rest => some (done, rest)
          | _ => none

/-- Read a value in which at most `depth` arrays and inline tables are open at once. -/
def readValue? : Nat → Reader Value
  | _, '"' :: rest => (readText? ('"' :: rest)).map fun (s, rest) => (.text s, rest)
  | _, '\'' :: rest => (readText? ('\'' :: rest)).map fun (s, rest) => (.text s, rest)
  | 0, '[' :: _ => none
  | 0, '\x7b' :: _ => none
  | depth + 1, '[' :: rest =>
    (readItems? (readValue? depth) (rest.length + 1) [] rest).map fun (items, rest) =>
      (.array items, rest)
  | depth + 1, '\x7b' :: rest =>
    (readEntries? (readValue? depth) (rest.length + 1) [] rest).map fun (entries, rest) =>
      (.table (Node.toEntries entries), rest)
  | _, cs => readScalar? cs

/-! ### Lines -/

/-- What has been read so far: the root table and the path of the latest header. -/
structure Progress where
  root : Nodes
  header : List String

/-- Change the root table. -/
def Progress.change (p : Progress) (header : List String) (change : Node.Change) :
    Option Progress :=
  (change .opened p.root).map fun (_, root) => ⟨root, header⟩

/-- The path of a header, after its opening brackets; `close` are its closing ones. -/
def readHeader? (close : List Char) (cs : List Char) : Option (List String × List Char) := do
  let (keys, rest) ← readKey? (skipBlanks cs)
  let rest := skipBlanks rest
  if close.isPrefixOf rest then some (keys, rest.drop close.length) else none

/-- Read what a line holds, if it holds anything but blanks and a comment. -/
def readContent? (p : Progress) : Reader Progress
  | '[' :: '[' :: rest => do
    let (keys, rest) ← readHeader? [']', ']'] rest
    let p ← p.change keys (Node.atLast Node.openElement keys)
    return (p, rest)
  | '[' :: rest => do
    let (keys, rest) ← readHeader? [']'] rest
    let p ← p.change keys (Node.atLast Node.openTable keys)
    return (p, rest)
  | cs => do
    let ((keys, value), rest) ← readAssignment? (readValue? maxDepth) cs
    let p ← p.change p.header (Node.within false (Node.assignAt keys value) p.header)
    return (p, rest)

/-- Whether a line holds nothing but, perhaps, a comment. -/
def isEmptyLine : List Char → Bool
  | [] => true
  | '#' :: _ => true
  | cs => (lineEnd? cs).isSome

/-- Read lines to the end of the text; `fuel` bounds their number. -/
def readLines? : Nat → Progress → List Char → Option Progress
  | 0, _, _ => none
  | fuel + 1, p, cs =>
    let cs := skipBlanks cs
    match if isEmptyLine cs then some (p, cs) else readContent? p cs with
    | none => none
    | some (p, rest) =>
      let rest := skipComment (skipBlanks rest)
      match rest with
      | [] => some p
      | rest =>
        match lineEnd? rest with
        | none => none
        | some rest => readLines? fuel p rest

/-- The text after the mark that may open a document. -/
def skipMark : List Char → List Char
  | '\ufeff' :: rest => rest
  | cs => cs

/-- Read a document. -/
def parse? (s : String) : Option Entries :=
  let cs := skipMark s.toList
  (readLines? (cs.length + 1) ⟨[], []⟩ cs).map fun p => Node.toEntries p.root

end GroupStore.Toml
