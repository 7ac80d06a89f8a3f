import GroupStore.Path
import GroupStore.Sorted
import GroupStore.Sqlite.Database

/-!
# Files: directories, plain files and databases

A file tree is a map from absolute places to what is there; a relative path starts at the working
directory.  A database file is held as the database in it, because nothing else looks inside.

* `Files.locate` — the place that a path names, through directories that exist;
* `Files.read?`, `append?`, `write?`, `createAll?` — what programs do to files;
* `Files.openDatabase?` — a database file, created unless it is there;
* `Files.isBlocked` — a directory where the engine needs a file beside its database.
-/

namespace GroupStore

/-- What is at a place. -/
inductive Node where
  | directory
  | bytes (content : ByteArray)
  | database (db : Sqlite.Database)
deriving DecidableEq

/-- A place: the names from the root downwards. -/
abbrev Place := List String

/-- A file tree with a working directory. -/
structure Files where
  /-- The working directory. -/
  home : Place
  /-- Everything below the root, by place. -/
  nodes : List (Place × Node)
deriving DecidableEq

namespace Files

/-- An empty working directory, and nothing else. -/
def fresh : Files := ⟨["work"], [(["work"], .directory)]⟩

/-- What is at a place; the root is a directory. -/
def at? (fs : Files) (place : Place) : Option Node :=
  if place = [] then some .directory else Sorted.get? place fs.nodes

/-- Put something at a place. -/
def put (fs : Files) (place : Place) (node : Node) : Files :=
  { fs with nodes := Sorted.put place node fs.nodes }

/-- Where a path starts. -/
def origin (fs : Files) (path : String) : Place :=
  if Path.isAbsolute path then [] else fs.home

/-- Go from a directory to one of its names or, by two dots, to its parent. -/
def enter (fs : Files) (place : Place) (part : String) : Option Place :=
  match fs.at? place with
  | some .directory => some (if part = ".." then place.dropLast else place ++ [part])
  | _ => none

/-- Whether a path can name anything: it is not empty, not too long and has no zero character. -/
def isUsable (path : String) : Bool :=
  path ≠ "" && path.utf8ByteSize < Path.maxBytes && (Path.sizeFault? path).isNone
    && !path.toList.contains '\x00'

/-- The place that a path names; everything before its last component must be a directory. -/
def locate (fs : Files) (path : String) : Option Place :=
  if isUsable path then (Path.components path).foldlM fs.enter (fs.origin path) else none

/-- What a path names; one that can only be a directory must be one. -/
def find? (fs : Files) (path : String) : Option Node :=
  match (fs.locate path).bind fs.at? with
  | some .directory => some .directory
  | some node => if Path.namesDirectory path then none else some node
  | none => none

/-- Whether a path names anything. -/
def has (fs : Files) (path : String) : Bool := (fs.find? path).isSome

/-- Whether a path names a directory. -/
def isDirectory (fs : Files) (path : String) : Bool := fs.find? path = some .directory

/-- How a database file begins: a signature, and a version number that is not text. -/
def databaseHeader : ByteArray :=
  "SQLite format 3\x00".toUTF8 ++ ⟨#[0x00, 0x2E, 0x8D, 0xF9]⟩

/-- The content of a file; none for a directory. -/
def read? (fs : Files) (path : String) : Option ByteArray :=
  match fs.find? path with
  | some (.bytes content) => some content
  | some (.database _) => some databaseHeader
  | _ => none

/-- Create the directories of some components below a place, where they are missing. -/
def createBelow? : Place → List String → Files → Option Files
  | _, [], fs => some fs
  | place, part :: rest, fs =>
    if part = ".." then createBelow? place.dropLast rest fs
    else
      match fs.at? (place ++ [part]) with
      | some .directory => createBelow? (place ++ [part]) rest fs
      | some _ => none
      | none => createBelow? (place ++ [part]) rest (fs.put (place ++ [part]) .directory)

/-- Create directories from where a path starts; none if something else is in the way or a name
has a zero character. -/
def createFrom? (fs : Files) (path : String) (parts : List String) : Option Files :=
  if parts.any fun part => part.contains '\x00' then none
  else createBelow? (fs.origin path) parts fs

/-- Create all directories of a path. -/
def createAll? (fs : Files) (path : String) : Option Files :=
  fs.createFrom? path (Path.components path)

/-- Create the directories above the last component of a path. -/
def createParents? (fs : Files) (path : String) : Option Files :=
  fs.createFrom? path (Path.components path).dropLast

/-- Open a file for appending: its place, and the files with it created unless it is there. -/
def openLog? (fs : Files) (path : String) : Option (Place × Files) :=
  if Path.namesDirectory path then none
  else
    match fs.locate path with
    | none => none
    | some place =>
      match fs.at? place with
      | some .directory => none
      | some _ => some (place, fs)
      | none =>
        match place.getLast?, fs.at? place.dropLast with
        | some _, some .directory => some (place, fs.put place (.bytes .empty))
        | _, _ => none

/-- Append to the plain file at a place. -/
def append (fs : Files) (place : Place) (text : String) : Files :=
  match fs.at? place with
  | some (.bytes content) => fs.put place (.bytes (content ++ text.toUTF8))
  | _ => fs

/-- Write a plain file, creating the directories above it. -/
def write? (fs : Files) (path : String) (content : ByteArray) : Option Files := do
  let fs ← fs.createParents? path
  let (place, fs) ← fs.openLog? path
  return fs.put place (.bytes content)

/-- The database at a place; an empty file is one without tables. -/
def databaseAt? (fs : Files) (place : Place) : Option Sqlite.Database :=
  match fs.at? place with
  | some (.database db) => some db
  | some (.bytes content) => if content.size = 0 then some .empty else none
  | _ => none

/-- Open a database file, creating it empty unless it is there; none if something else is there. -/
def openDatabase? (fs : Files) (place : Place) : Option (Sqlite.Database × Files) :=
  match fs.at? place with
  | none => some (.empty, fs.put place (.bytes .empty))
  | some _ => (fs.databaseAt? place).map fun db => (db, fs)

/-- Whether a database has been written to the file at a place. -/
def isWritten (fs : Files) (place : Place) : Bool :=
  match fs.at? place with
  | some (.database _) => true
  | _ => false

/-- The place beside another one whose name goes on with an ending. -/
def beside : Place → String → Place
  | [], _ => []
  | [name], ending => [name ++ ending]
  | part :: rest, ending => part :: beside rest ending

/-- Whether a directory stands beside a place where the name goes on with an ending. -/
def isBlocked (fs : Files) (place : Place) (ending : String) : Bool :=
  fs.at? (beside place ending) = some .directory

end Files

end GroupStore
